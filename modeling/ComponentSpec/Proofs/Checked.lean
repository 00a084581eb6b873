import Mathlib.Data.List.Perm.Basic
import ComponentSpec.Fault

/-!
# Checked steps

How a chain of checked steps can end. `bind_eq_ok`, whatever can go wrong, and `bind_eq_error` take
a chain apart at its first step, `mapM_eq_ok` and `exists_of_mapM_eq_error` do so for a step taken
for each item of a list.

* `Checked.mapM_eq_ok` — a list of outcomes is item by item the outcome of its step;
* `Checked.forall₂_filterMap` — the outcomes that are there, against the items that have one;
* `Checked.filterMap_mapM_perm`, `Checked.filterMap_mapM_insert` — items in another order, and an
  item more;
* `Checked.forall_mem_iff_of_forall₂` — what holds of all items, said of their outcomes;
* `Checked.Yields`, `Checked.Avoids` — what a step gives if it gives anything, and how it does not
  fail;
* `Checked.Follows`, `Checked.Carries` — two runs, of which the second gives as much as the first,
  or fails in a given way.
-/

namespace ComponentSpec.Checked

variable {α β : Type} {x : Checked α} {f : α → Checked β} {b : β} {e : Fault}

@[simp] theorem pure_eq (a : α) : (pure a : Checked α) = .ok a := rfl

@[simp] theorem throw_eq (e : Fault) : (throw e : Checked α) = .error e := rfl

@[simp] theorem ok_bind (a : α) (f : α → Checked β) : (Except.ok a >>= f) = f a := rfl

@[simp] theorem error_bind (e : Fault) (f : α → Checked β) :
    ((Except.error e : Checked α) >>= f) = .error e := rfl

@[simp] theorem map_ok (a : α) (f : α → β) : (f <$> (.ok a : Checked α)) = .ok (f a) := rfl

@[simp] theorem map_error (e : Fault) (f : α → β) :
    (f <$> (.error e : Checked α)) = .error e := rfl

/-- **A chain succeeds** if its first step does, and its second on what the first gave. -/
theorem bind_eq_ok {ε : Type} {x : Except ε α} {f : α → Except ε β} :
    (x >>= f) = .ok b ↔ ∃ a, x = .ok a ∧ f a = .ok b := by
  cases x <;> simp [bind, Except.bind]

/-- **A chain fails** at its first step, or at its second on what the first gave. -/
theorem bind_eq_error : (x >>= f) = .error e ↔ x = .error e ∨ ∃ a, x = .ok a ∧ f a = .error e := by
  cases x <;> simp

theorem map_eq_ok {ε : Type} {x : Except ε α} {f : α → β} :
    (f <$> x) = .ok b ↔ ∃ a, x = .ok a ∧ f a = b := by
  cases x <;> simp [Functor.map, Except.map]

theorem map_eq_error {f : α → β} : (f <$> x) = .error e ↔ x = .error e := by
  cases x <;> simp

/-- Only what a first step gives matters to the second. -/
theorem bind_congr_ok {g : α → Checked β} (h : ∀ a, x = .ok a → f a = g a) :
    (x >>= f) = (x >>= g) := by
  cases x with
  | ok a => exact h a rfl
  | error e => rfl

/-! ### A step for each item -/

variable {xs : List α} {ys : List β}

/-- Steps that agree on the items of a list agree on the list. -/
theorem mapM_congr {g : α → Checked β} (h : ∀ a ∈ xs, f a = g a) : xs.mapM f = xs.mapM g := by
  induction xs with
  | nil => rfl
  | cons x xs ih =>
    rw [List.mapM_cons, List.mapM_cons, h x List.mem_cons_self,
      ih fun a ha => h a (List.mem_cons_of_mem x ha)]

/-- So do tests. -/
theorem filterM_congr {test test' : α → Checked Bool} (h : ∀ a ∈ xs, test a = test' a) :
    xs.filterM test = xs.filterM test' := by
  have aux (acc : List α) : xs.filterAuxM test acc = xs.filterAuxM test' acc := by
    induction xs generalizing acc with
    | nil => rfl
    | cons x xs ih =>
      rw [List.filterAuxM, List.filterAuxM, h x List.mem_cons_self]
      exact bind_congr fun b => ih (fun a ha => h a (List.mem_cons_of_mem x ha)) _
  rw [List.filterM, List.filterM, aux]

/-- **Item by item.** A list of outcomes is the list of the outcomes of the items. -/
theorem mapM_eq_ok : xs.mapM f = .ok ys ↔ List.Forall₂ (fun a b => f a = .ok b) xs ys := by
  induction xs generalizing ys with
  | nil => cases ys <;> simp
  | cons x xs ih =>
    simp only [List.mapM_cons, bind_eq_ok, pure_eq, Except.ok.injEq]
    constructor
    · rintro ⟨b, hb, bs, hbs, rfl⟩
      exact .cons hb (ih.1 hbs)
    · intro h
      cases h with
      | cons hb hbs => exact ⟨_, hb, _, ih.2 hbs, rfl⟩

/-- What holds of all the items holds, said of the outcomes, of all the outcomes. -/
theorem forall_mem_iff_of_forall₂ {R : α → β → Prop} {P : α → Prop} {Q : β → Prop}
    (h : List.Forall₂ R xs ys) (agree : ∀ a b, R a b → (P a ↔ Q b)) :
    (∀ a ∈ xs, P a) ↔ ∀ b ∈ ys, Q b := by
  induction h with
  | nil => simp
  | cons first _ ih => rw [List.forall_mem_cons, List.forall_mem_cons, agree _ _ first, ih]

/-- What each outcome has by its item, all outcomes have. -/
theorem forall_mem_of_forall₂ {R : α → β → Prop} {Q : β → Prop} (h : List.Forall₂ R xs ys)
    (holds : ∀ a b, R a b → Q b) : ∀ b ∈ ys, Q b := by
  refine (forall_mem_iff_of_forall₂ (P := fun _ => True) h fun a b read => ?_).1 fun _ _ => trivial
  exact ⟨fun _ => holds a b read, fun _ => trivial⟩

/-- Items in another order have the same outcomes in another order. -/
theorem mapM_eq_ok_of_perm {xs' : List α} (perm : xs.Perm xs') (h : xs.mapM f = .ok ys) :
    ∃ ys', xs'.mapM f = .ok ys' ∧ ys.Perm ys' := by
  obtain ⟨ys', outcomes, perm'⟩ := List.perm_comp_forall₂ perm.symm (mapM_eq_ok.1 h)
  exact ⟨ys', mapM_eq_ok.2 outcomes, perm'.symm⟩

/-- What fails for a list fails for one of its items, and the items before it did not. -/
theorem exists_of_mapM_eq_error (h : xs.mapM f = .error e) :
    ∃ before a after, xs = before ++ a :: after ∧ f a = .error e ∧
      ∀ b ∈ before, ∃ c, f b = .ok c := by
  induction xs with
  | nil => simp at h
  | cons x xs ih =>
    simp only [List.mapM_cons, bind_eq_error, pure_eq, reduceCtorEq, and_false, exists_false,
      or_false] at h
    -- the first item fails, or it has an outcome and a later one fails
    rcases h with h | ⟨c, hc, h⟩
    · exact ⟨[], x, xs, rfl, h, by simp⟩
    · obtain ⟨before, a, after, rfl, ha, hbefore⟩ := ih h
      refine ⟨x :: before, a, after, rfl, ha, ?_⟩
      intro b hb
      rcases List.mem_cons.1 hb with rfl | hb
      · exact ⟨c, hc⟩
      · exact hbefore b hb

/-- A failure is the failure of an item. -/
theorem exists_mem_of_mapM_eq_error (h : xs.mapM f = .error e) : ∃ a ∈ xs, f a = .error e := by
  obtain ⟨before, a, after, rfl, ha, -⟩ := exists_of_mapM_eq_error h
  exact ⟨a, by simp, ha⟩

theorem exists_mem_of_forall₂ {R : α → β → Prop} (h : List.Forall₂ R xs ys) {a : α}
    (ha : a ∈ xs) : ∃ b ∈ ys, R a b := by
  induction h with
  | nil => cases ha
  | cons first _ ih =>
    rcases List.mem_cons.1 ha with rfl | ha
    · exact ⟨_, List.mem_cons_self, first⟩
    · obtain ⟨b, hb, related⟩ := ih ha
      exact ⟨b, List.mem_cons_of_mem _ hb, related⟩

theorem exists_of_mem_of_mapM_eq_ok (h : xs.mapM f = .ok ys) {a : α} (ha : a ∈ xs) :
    ∃ b, f a = .ok b := by
  obtain ⟨b, -, hb⟩ := exists_mem_of_forall₂ (mapM_eq_ok.1 h) ha
  exact ⟨b, hb⟩

/-- Another step with the same outcomes. -/
theorem mapM_eq_ok_of_mapM_eq_ok {g : α → Checked β} (h : xs.mapM f = .ok ys)
    (carry : ∀ a ∈ xs, ∀ b ∈ ys, f a = .ok b → g a = .ok b) : xs.mapM g = .ok ys := by
  replace h := mapM_eq_ok.1 h
  refine mapM_eq_ok.2 ?_
  induction h with
  | nil => exact .nil
  | cons head _ ih =>
    refine .cons (carry _ List.mem_cons_self _ List.mem_cons_self head) (ih fun a ha b hb => ?_)
    exact carry a (List.mem_cons_of_mem _ ha) b (List.mem_cons_of_mem _ hb)

/-- Every outcome is that of an item. -/
theorem exists_mem_of_mem_mapM (h : xs.mapM f = .ok ys) (hb : b ∈ ys) : ∃ a ∈ xs, f a = .ok b := by
  induction mapM_eq_ok.1 h with
  | nil => cases hb
  | @cons a b' as bs ha has ih =>
    rcases List.mem_cons.1 hb with rfl | hb
    · exact ⟨a, List.mem_cons_self, ha⟩
    · obtain ⟨a', ha', hfa'⟩ := ih (mapM_eq_ok.2 has) hb
      exact ⟨a', List.mem_cons_of_mem a ha', hfa'⟩

theorem flatten_mapM_cons {f : α → Checked (List β)} (x : α) (xs : List α) :
    List.flatten <$> (x :: xs).mapM f =
      f x >>= fun l => (l ++ ·) <$> (List.flatten <$> xs.mapM f) := by
  rw [List.mapM_cons]
  cases f x with
  | error e => rfl
  | ok l => cases xs.mapM f <;> rfl

theorem flatten_mapM_singleton {f : α → Checked (List β)} (x : α) :
    List.flatten <$> [x].mapM f = f x := by
  rw [flatten_mapM_cons, List.mapM_nil]
  cases f x <;> simp

/-- The lists that a list in two parts gives are those of the first part, and then those of the
second. -/
theorem flatten_mapM_append {f : α → Checked (List β)} (xs xs' : List α) :
    List.flatten <$> (xs ++ xs').mapM f =
      (List.flatten <$> xs.mapM f) >>= fun l => (l ++ ·) <$> (List.flatten <$> xs'.mapM f) := by
  rw [List.mapM_append]
  cases xs.mapM f with
  | error e => rfl
  | ok ls =>
    cases xs'.mapM f with
    | error e => rfl
    | ok ls' => simp

/-- **The outcomes that are there.** Where a step has an outcome for some items and none for the
others, the outcomes are those of the items that have one, in order. -/
theorem forall₂_filterMap {step : α → Checked (Option β)} {p : α → Bool}
    (hp : ∀ a ∈ xs, ∀ o, step a = .ok o → o.isSome = p a)
    (h : (List.filterMap id <$> xs.mapM step) = .ok ys) :
    List.Forall₂ (fun a b => step a = .ok (some b)) (xs.filter p) ys := by
  obtain ⟨os, hos, rfl⟩ := map_eq_ok.1 h
  replace hos := mapM_eq_ok.1 hos
  clear h
  induction hos with
  | nil => exact .nil
  | @cons a o as os ha _ ih =>
    -- whether the first item is kept is whether its step has an outcome
    have hap := hp a List.mem_cons_self o ha
    have rest := ih fun a' ha' => hp a' (List.mem_cons_of_mem a ha')
    cases o with
    | none =>
      rw [List.filter_cons_of_neg (by simp [← hap])]
      exact rest
    | some b =>
      rw [List.filter_cons_of_pos hap.symm]
      exact .cons ha rest

theorem filterMap_mapM_cons {step : α → Checked (Option β)} (x : α) (xs : List α) :
    List.filterMap id <$> (x :: xs).mapM step =
      step x >>= fun o => (o.toList ++ ·) <$> (List.filterMap id <$> xs.mapM step) := by
  rw [List.mapM_cons]
  cases step x with
  | error e => rfl
  | ok o => cases xs.mapM step <;> cases o <;> rfl

/-- Items without an outcome can be left out. -/
theorem filterMap_mapM_filter {step : α → Checked (Option β)} {p : α → Bool}
    (hp : ∀ a ∈ xs, p a = false → step a = .ok none) :
    List.filterMap id <$> (xs.filter p).mapM step = List.filterMap id <$> xs.mapM step := by
  induction xs with
  | nil => rfl
  | cons x xs ih =>
    have rest := ih fun a ha => hp a (List.mem_cons_of_mem x ha)
    cases hx : p x with
    | true => rw [List.filter_cons_of_pos hx, filterMap_mapM_cons, filterMap_mapM_cons, rest]
    | false =>
      rw [List.filter_cons_of_neg (by simp [hx]), filterMap_mapM_cons,
        hp x List.mem_cons_self hx, ok_bind, rest]
      cases List.filterMap id <$> xs.mapM step <;> rfl

/-- What is kept is the outcome of an item. -/
theorem exists_mem_of_filterMap_mapM {step : α → Checked (Option β)} {xs : List α} {ys : List β}
    (h : List.filterMap id <$> xs.mapM step = .ok ys) {y : β} (hy : y ∈ ys) :
    ∃ x ∈ xs, step x = .ok (some y) := by
  obtain ⟨os, run, rfl⟩ := map_eq_ok.1 h
  obtain ⟨o, ho, same⟩ := List.mem_filterMap.1 hy
  obtain ⟨x, hx, outcome⟩ := exists_mem_of_mem_mapM run ho
  exact ⟨x, hx, same ▸ outcome⟩

/-- An item without an outcome can be put in anywhere. -/
theorem filterMap_mapM_insert {step : α → Checked (Option β)} (before after : List α) {x : α}
    (hx : step x = .ok none) :
    List.filterMap id <$> (before ++ x :: after).mapM step =
      List.filterMap id <$> (before ++ after).mapM step := by
  induction before with
  | nil =>
    rw [List.nil_append, List.nil_append, filterMap_mapM_cons, hx, ok_bind]
    cases List.filterMap id <$> after.mapM step <;> rfl
  | cons y before ih =>
    rw [List.cons_append, List.cons_append, filterMap_mapM_cons, filterMap_mapM_cons, ih]

/-- The outcomes of a list in two parts. -/
theorem filterMap_mapM_append {step : α → Checked (Option β)} (xs xs' : List α) :
    List.filterMap id <$> (xs ++ xs').mapM step =
      (List.filterMap id <$> xs.mapM step) >>= fun ys =>
        (ys ++ ·) <$> (List.filterMap id <$> xs'.mapM step) := by
  rw [List.mapM_append]
  cases xs.mapM step with
  | error e => rfl
  | ok os =>
    cases xs'.mapM step with
    | error e => rfl
    | ok os' => simp

/-- Items in another order have their outcomes, where they have one, in another order. -/
theorem filterMap_mapM_perm {step : α → Checked (Option β)} {xs' : List α} (perm : xs.Perm xs')
    (h : List.filterMap id <$> xs.mapM step = .ok ys) :
    ∃ ys', List.filterMap id <$> xs'.mapM step = .ok ys' ∧ ys.Perm ys' := by
  obtain ⟨os, hos, rfl⟩ := map_eq_ok.1 h
  obtain ⟨os', hos', perm'⟩ := mapM_eq_ok_of_perm perm hos
  exact ⟨os'.filterMap id, by rw [hos', map_ok], perm'.filterMap id⟩

/-- **Filtering by a test that can fail.** -/
theorem eq_filter_of_filterM {test : α → Checked Bool} {p : α → Bool} {xs' : List α}
    (hp : ∀ a ∈ xs, ∀ o, test a = .ok o → o = p a) (h : xs.filterM test = .ok xs') :
    xs' = xs.filter p := by
  -- the items that are kept are gathered in reverse, in front of those gathered before
  have aux (acc : List α) (l : List α) (h : xs.filterAuxM test acc = .ok l) :
      l = (xs.filter p).reverse ++ acc := by
    clear * - hp h
    induction xs generalizing acc with
    | nil => cases h; rfl
    | cons x xs ih =>
      obtain ⟨b, hb, h⟩ := bind_eq_ok.1 h
      have rest := ih (fun a ha => hp a (List.mem_cons_of_mem x ha)) _ h
      rw [hp x List.mem_cons_self b hb] at rest
      cases hx : p x with
      | true => rw [List.filter_cons_of_pos hx, rest, hx]; simp
      | false => rw [List.filter_cons_of_neg (by simp [hx]), rest, hx]; rfl
  -- what was gathered is reversed in the end
  obtain ⟨l, hl, h⟩ := bind_eq_ok.1 h
  cases h
  rw [aux [] l hl]
  simp

/-- A test that always has an outcome filters as its outcomes do. -/
theorem filterM_eq_ok {test : α → Checked Bool} {p : α → Bool}
    (hp : ∀ a ∈ xs, test a = .ok (p a)) : xs.filterM test = .ok (xs.filter p) := by
  have aux (acc : List α) :
      xs.filterAuxM test acc = .ok ((xs.filter p).reverse ++ acc) := by
    induction xs generalizing acc with
    | nil => rfl
    | cons x xs ih =>
      have rest := ih fun a ha => hp a (List.mem_cons_of_mem x ha)
      rw [List.filterAuxM, hp x List.mem_cons_self, ok_bind, rest]
      by_cases hx : p x <;> simp [hx]
  rw [List.filterM, aux, ok_bind, List.append_nil, List.reverse_reverse, pure_eq]

/-- What is kept was there. -/
theorem mem_of_filterM_eq_ok {test : α → Checked Bool} {xs' : List α}
    (h : xs.filterM test = .ok xs') {a : α} (ha : a ∈ xs') : a ∈ xs := by
  -- an item whose test fails can count as dropped, since there is none
  let p (a : α) : Bool := match test a with
    | .ok b => b
    | .error _ => false
  have kept : xs' = xs.filter p := by
    refine eq_filter_of_filterM (fun a _ b hb => ?_) h
    simp only [p, hb]
  rw [kept] at ha
  exact List.mem_of_mem_filter ha

/-! ### What a step gives -/

/-- **A step whose outcome, if it has one, has a property.** -/
def Yields (P : α → Prop) (x : Checked α) : Prop := ∀ a, x = .ok a → P a

variable {P : α → Prop}

@[simp] theorem yields_ok {a : α} : Yields P (.ok a) ↔ P a := by simp [Yields]

@[simp] theorem yields_error (e : Fault) : Yields P (.error e : Checked α) := fun _ h => nomatch h

theorem Yields.map {Q : β → Prop} {f : α → β} (hx : Yields P x) (hf : ∀ a, P a → Q (f a)) :
    Yields Q (f <$> x) := by
  intro b hb
  obtain ⟨a, ha, rfl⟩ := map_eq_ok.1 hb
  exact hf a (hx a ha)

/-- What each step yields, a list of steps yields item by item. -/
theorem forall₂_of_mapM_of_yields {R : α → β → Prop} (hf : ∀ a ∈ xs, Yields (R a) (f a))
    (h : xs.mapM f = .ok ys) : List.Forall₂ R xs ys := by
  induction mapM_eq_ok.1 h with
  | nil => exact .nil
  | @cons a b as bs ha has ih =>
    exact .cons (hf a List.mem_cons_self b ha)
      (ih (fun a' ha' => hf a' (List.mem_cons_of_mem a ha')) (mapM_eq_ok.2 has))

/-! ### Ways to fail -/

/-- **A step that does not fail in a given way.** It may fail in another. -/
def Avoids (bad : Fault → Prop) (x : Checked α) : Prop := ∀ e, x = .error e → ¬ bad e

variable {bad : Fault → Prop}

theorem Avoids.mono {bad' : Fault → Prop} (hx : Avoids bad x) (h : ∀ e, bad' e → bad e) :
    Avoids bad' x :=
  fun e he hbad => hx e he (h e hbad)

@[simp] theorem avoids_ok (a : α) : Avoids bad (.ok a : Checked α) := fun _ h => nomatch h

@[simp] theorem avoids_error : Avoids bad (.error e : Checked α) ↔ ¬ bad e := by
  simp [Avoids]

/-- A chain avoids what both its steps avoid. -/
theorem Avoids.bind (hx : Avoids bad x) (hf : ∀ a, x = .ok a → Avoids bad (f a)) :
    Avoids bad (x >>= f) := by
  cases x with
  | ok a => exact hf a rfl
  | error e => exact avoids_error.2 (avoids_error.1 hx)

theorem Avoids.map {f : α → β} (hx : Avoids bad x) : Avoids bad (f <$> x) :=
  fun e he => hx e (map_eq_error.1 he)

/-- A list of steps avoids what every one of them avoids. -/
theorem Avoids.mapM (hf : ∀ a ∈ xs, Avoids bad (f a)) : Avoids bad (xs.mapM f) := by
  intro e he
  obtain ⟨a, ha, hfa⟩ := exists_mem_of_mapM_eq_error he
  exact hf a ha e hfa

/-! ### Two runs -/

section Follows

variable {γ δ : Type} {R : α → β → Prop} {S : γ → δ → Prop} {fails : Fault → Prop} {y : Checked β}

/-- **Where the first step gives something,** the second gives something related, or fails in a
given way. -/
def Follows (R : α → β → Prop) (fails : Fault → Prop) (x : Checked α) (y : Checked β) : Prop :=
  Yields (fun a => (∃ b, y = .ok b ∧ R a b) ∨ ∃ e, y = .error e ∧ fails e) x

/-- **Where the first step gives something,** so does the second, and the two are related. -/
abbrev Carries (R : α → β → Prop) (x : Checked α) (y : Checked β) : Prop :=
  Follows R (fun _ => False) x y

theorem Follows.exists_ok (h : Carries R x y) {a : α} (ha : x = .ok a) :
    ∃ b, y = .ok b ∧ R a b := by
  rcases h a ha with given | ⟨e, -, failed⟩
  · exact given
  · exact failed.elim

theorem follows_error (e : Fault) (y : Checked β) : Follows R fails (.error e) y := yields_error e

theorem Follows.ok {a : α} {b : β} (h : R a b) : Follows R fails (.ok a) (.ok b) :=
  yields_ok.2 (Or.inl ⟨b, rfl, h⟩)

/-- **Two chains,** of which the second follows at either step. Where it fails at the first, it
fails in the given way. -/
theorem Follows.bind {f : α → Checked γ} {g : β → Checked δ} (h : Follows R fails x y)
    (next : ∀ a b, x = .ok a → R a b → Follows S fails (f a) (g b)) :
    Follows S fails (x >>= f) (y >>= g) := by
  intro c hc
  obtain ⟨a, ha, hc⟩ := bind_eq_ok.1 hc
  rcases h a ha with ⟨b, rfl, related⟩ | ⟨e, rfl, failed⟩
  · exact next a b ha related c hc
  · exact Or.inr ⟨e, rfl, failed⟩

theorem Follows.map {f : α → γ} {g : β → δ} (h : Follows R fails x y)
    (next : ∀ a b, R a b → S (f a) (g b)) : Follows S fails (f <$> x) (g <$> y) := by
  intro c hc
  obtain ⟨a, ha, rfl⟩ := map_eq_ok.1 hc
  rcases h a ha with ⟨b, rfl, related⟩ | ⟨e, rfl, failed⟩
  · exact Or.inl ⟨g b, rfl, next a b related⟩
  · exact Or.inr ⟨e, rfl, failed⟩

/-- The first step is the same. -/
theorem Follows.bind_same {f : α → Checked γ} {g : α → Checked δ}
    (next : ∀ a, x = .ok a → Follows S fails (f a) (g a)) :
    Follows S fails (x >>= f) (x >>= g) := by
  cases x with
  | error e => exact follows_error e _
  | ok a => exact next a rfl

/-- Steps for items that are related one by one. -/
theorem Follows.mapM_forall₂ {zs : List γ} {ws : List δ} {f : γ → Checked α} {g : δ → Checked β}
    (items : List.Forall₂ S zs ws) (h : ∀ c d, c ∈ zs → S c d → Follows R fails (f c) (g d)) :
    Follows (List.Forall₂ R) fails (zs.mapM f) (ws.mapM g) := by
  induction items with
  | nil => exact .ok .nil
  | @cons c d zs ws head _ ih =>
    have first := h c d List.mem_cons_self head
    have others := ih fun c' d' hc' => h c' d' (List.mem_cons_of_mem c hc')
    rw [List.mapM_cons, List.mapM_cons]
    exact first.bind fun _ _ _ given => others.bind fun _ _ _ rest => .ok (.cons given rest)

/-- Steps with the same outcomes, for items that are related one by one. -/
theorem Follows.mapM_eq {zs : List γ} {ws : List δ} {f : γ → Checked α} {g : δ → Checked α}
    (items : List.Forall₂ S zs ws)
    (h : ∀ c d, c ∈ zs → S c d → Follows (· = ·) fails (f c) (g d)) :
    Follows (· = ·) fails (zs.mapM f) (ws.mapM g) := by
  intro as has
  rcases mapM_forall₂ items h as has with ⟨as', has', same⟩ | failed
  · rw [List.forall₂_eq_eq_eq] at same
    exact Or.inl ⟨as', has', same⟩
  · exact Or.inr failed

/-- The same steps up to faults, for the same items. -/
theorem Follows.mapM_same {zs : List γ} {f g : γ → Checked α}
    (h : ∀ c ∈ zs, Follows (· = ·) fails (f c) (g c)) :
    Follows (· = ·) fails (zs.mapM f) (zs.mapM g) := by
  refine mapM_eq (List.forall₂_same.2 fun c _ => Eq.refl c) fun c d hc same => ?_
  subst same
  exact h c hc

/-- Tests with the same answers keep items that are related one by one. -/
theorem Follows.filterM_forall₂ {zs : List γ} {ws : List δ} {test : γ → Checked Bool}
    {test' : δ → Checked Bool} (items : List.Forall₂ S zs ws)
    (h : ∀ c d, S c d → Follows (· = ·) fails (test c) (test' d)) :
    Follows (List.Forall₂ S) fails (zs.filterM test) (ws.filterM test') := by
  have aux {acc : List γ} {acc' : List δ} (kept : List.Forall₂ S acc acc') :
      Follows (List.Forall₂ S) fails (zs.filterAuxM test acc) (ws.filterAuxM test' acc') := by
    induction items generalizing acc acc' with
    | nil => exact .ok kept
    | cons head _ ih =>
      refine (h _ _ head).bind fun keep keep' _ same => ?_
      subst same
      cases keep with
      | true => exact ih (.cons head kept)
      | false => exact ih kept
  exact (aux .nil).bind fun _ _ _ kept => .ok (List.forall₂_reverse_iff.2 kept)

theorem Follows.mapM {zs : List γ} {f : γ → Checked α} {g : γ → Checked β}
    (h : ∀ c ∈ zs, Follows R fails (f c) (g c)) :
    Follows (List.Forall₂ R) fails (zs.mapM f) (zs.mapM g) := by
  refine mapM_forall₂ (List.forall₂_same.2 fun c _ => Eq.refl c) fun c d hc same => ?_
  subst same
  exact h c hc

end Follows

end ComponentSpec.Checked
