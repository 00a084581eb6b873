import ComponentSpec.Proofs.Checked

/-!
# Two runs that end alike

Two runs end alike if both give something, and what they give is related, or if both fail with
faults of one kind. The kind of a fault is what a caller can tell apart: the family of a report, the
sort of a misfit. What a report says, and of which node, is no part of it.

* `Fault.Kind`, `Fault.kind` — kinds of faults;
* `Checked.Alike` — the relation of two outcomes, with a lemma for each way to put steps together.
-/

namespace ComponentSpec

/-! ### Kinds of faults -/

/-- **What a caller can tell apart** about faults. -/
inductive Fault.Kind where
  | report (category : Category)
  | misfit (m : Misfit)
  | invalid
  | json
  | longInteger
  | utf8
  | disk (cause : DiskCause)
  | unprintable
  | noSource
  | endless
  | stack
  | overflow
  | exhausted
deriving DecidableEq

/-- The kind of a fault. -/
def Fault.kind : Fault → Fault.Kind
  | .report r => .report r.cause.category
  | .misfit m => .misfit m
  | .invalid _ => .invalid
  | .json _ => .json
  | .longInteger _ => .longInteger
  | .utf8 _ => .utf8
  | .disk e => .disk e.cause
  | .unprintable _ => .unprintable
  | .noSource _ => .noSource
  | .endless => .endless
  | .stack => .stack
  | .overflow => .overflow
  | .exhausted => .exhausted

namespace Checked

variable {α β γ δ : Type} {R : α → β → Prop} {S : γ → δ → Prop} {x : Checked α} {y : Checked β}

/-- **Two outcomes that are alike.** -/
inductive Alike (R : α → β → Prop) : Checked α → Checked β → Prop where
  | ok {a : α} {b : β} (related : R a b) : Alike R (.ok a) (.ok b)
  | error {e e' : Fault} (same : e.kind = e'.kind) : Alike R (.error e) (.error e')

namespace Alike

theorem mono {T : α → β → Prop} (h : Alike R x y) (weaker : ∀ a b, R a b → T a b) :
    Alike T x y := by
  cases h with
  | ok related => exact .ok (weaker _ _ related)
  | error same => exact .error same

/-- The outcomes of the same run. -/
theorem of_eq {x y : Checked α} (h : x = y) : Alike (· = ·) x y := by
  subst h
  cases x with
  | ok a => exact .ok rfl
  | error e => exact .error rfl

theorem bind {f : α → Checked γ} {g : β → Checked δ} (h : Alike R x y)
    (next : ∀ a b, x = .ok a → R a b → Alike S (f a) (g b)) : Alike S (x >>= f) (y >>= g) := by
  cases h with
  | ok related => exact next _ _ rfl related
  | error same => exact .error same

theorem map {f : α → γ} {g : β → δ} (h : Alike R x y) (next : ∀ a b, R a b → S (f a) (g b)) :
    Alike S (f <$> x) (g <$> y) := by
  cases h with
  | ok related => exact .ok (next _ _ related)
  | error same => exact .error same

/-- Both runs go on with the same thing. -/
theorem bind_eq {x y : Checked α} {f : α → Checked γ} {g : α → Checked δ}
    (h : Alike (· = ·) x y) (next : ∀ a, Alike S (f a) (g a)) :
    Alike S (x >>= f) (y >>= g) := by
  refine h.bind fun a b _ same => ?_
  subst same
  exact next a

/-- Both runs go on with related things and the same remark. -/
theorem bind_fst {ε : Type} {x : Checked (α × ε)} {y : Checked (β × ε)} {f : α × ε → Checked γ}
    {g : β × ε → Checked δ} (h : Alike (fun r r' => R r.1 r'.1 ∧ r.2 = r'.2) x y)
    (next : ∀ a b c, R a b → Alike S (f (a, c)) (g (b, c))) : Alike S (x >>= f) (y >>= g) := by
  refine h.bind fun r r' _ related => ?_
  obtain ⟨a, c⟩ := r
  obtain ⟨b, c'⟩ := r'
  obtain ⟨related, same⟩ := related
  subst same
  exact next a b c related

theorem bind_snd {ε : Type} {x : Checked (ε × α)} {y : Checked (ε × β)} {f : ε × α → Checked γ}
    {g : ε × β → Checked δ} (h : Alike (fun r r' => r.1 = r'.1 ∧ R r.2 r'.2) x y)
    (next : ∀ c a b, R a b → Alike S (f (c, a)) (g (c, b))) : Alike S (x >>= f) (y >>= g) := by
  refine h.bind fun r r' _ related => ?_
  obtain ⟨c, a⟩ := r
  obtain ⟨c', b⟩ := r'
  obtain ⟨same, related⟩ := related
  subst same
  exact next c a b related

/-! ### A step for each item -/

variable {xs : List γ} {ys : List δ}

theorem mapM {f : γ → Checked α} {g : δ → Checked β} (items : List.Forall₂ S xs ys)
    (h : ∀ c d, c ∈ xs → S c d → Alike R (f c) (g d)) :
    Alike (List.Forall₂ R) (xs.mapM f) (ys.mapM g) := by
  induction items with
  | nil => exact .ok .nil
  | @cons c d xs ys head _ ih =>
    have first := h c d List.mem_cons_self head
    have others := ih fun c' d' hc' => h c' d' (List.mem_cons_of_mem c hc')
    rw [List.mapM_cons, List.mapM_cons]
    exact first.bind fun _ _ _ given => others.bind fun _ _ _ rest => .ok (.cons given rest)

theorem mapM_eq {f : γ → Checked α} {g : δ → Checked α} (items : List.Forall₂ S xs ys)
    (h : ∀ c d, c ∈ xs → S c d → Alike (· = ·) (f c) (g d)) :
    Alike (· = ·) (xs.mapM f) (ys.mapM g) := by
  refine (mapM items h).mono fun as bs same => ?_
  rwa [List.forall₂_eq_eq_eq] at same

theorem filterM {test : γ → Checked Bool} {test' : δ → Checked Bool}
    (items : List.Forall₂ S xs ys) (h : ∀ c d, S c d → Alike (· = ·) (test c) (test' d)) :
    Alike (List.Forall₂ S) (xs.filterM test) (ys.filterM test') := by
  have aux {acc : List γ} {acc' : List δ} (kept : List.Forall₂ S acc acc') :
      Alike (List.Forall₂ S) (xs.filterAuxM test acc) (ys.filterAuxM test' acc') := by
    induction items generalizing acc acc' with
    | nil => exact .ok kept
    | cons head _ ih =>
      refine (h _ _ head).bind_eq fun keep => ?_
      cases keep with
      | true => exact ih (.cons head kept)
      | false => exact ih kept
  exact (aux .nil).bind fun _ _ _ kept => .ok (List.forall₂_reverse_iff.2 kept)

theorem foldlM {f : α → γ → Checked α} {g : β → δ → Checked β} (items : List.Forall₂ S xs ys)
    (h : ∀ a b c d, R a b → S c d → Alike R (f a c) (g b d)) {a : α} {b : β} (start : R a b) :
    Alike R (xs.foldlM f a) (ys.foldlM g b) := by
  induction items generalizing a b with
  | nil => exact .ok start
  | cons head _ ih =>
    rw [List.foldlM_cons, List.foldlM_cons]
    exact (h _ _ _ _ start head).bind fun _ _ _ next => ih next

end Alike

end Checked

end ComponentSpec
