import Mathlib.Data.List.Forall2

/-!
# Computations that succeed or fail

When a computation made of parts succeeds, each part does.  When it fails, one part is the first
that does.  Two computations that are made of parts are compared part by part: they give related
values, or the first fails in a way that is tolerated.
-/

namespace WordMachine.Results

variable {ε α β : Type}

@[simp] theorem bind_ok (a : α) (f : α → Except ε β) : (Except.ok a >>= f) = f a := rfl

@[simp] theorem bind_error (e : ε) (f : α → Except ε β) :
    ((Except.error e : Except ε α) >>= f) = .error e := rfl

theorem bind_eq_ok_iff {x : Except ε α} {f : α → Except ε β} {b : β} :
    (x >>= f) = .ok b ↔ ∃ a, x = .ok a ∧ f a = .ok b := by
  cases x with
  | error e => simp
  | ok a => simp

theorem map_eq_ok_iff {x : Except ε α} {f : α → β} {b : β} :
    x.map f = .ok b ↔ ∃ a, x = .ok a ∧ f a = b := by
  cases x with
  | error e => simp [Except.map]
  | ok a => simp [Except.map]

theorem mapM_eq_ok_iff {f : α → Except ε β} {xs : List α} {ys : List β} :
    xs.mapM f = .ok ys ↔ List.Forall₂ (fun x y => f x = .ok y) xs ys := by
  induction xs generalizing ys with
  | nil =>
      rw [List.mapM_nil, List.forall₂_nil_left_iff]
      exact ⟨fun h => (Except.ok.inj h).symm, fun h => by rw [h]; rfl⟩
  | cons x xs ih =>
      rw [List.mapM_cons, bind_eq_ok_iff, List.forall₂_cons_left_iff]
      constructor
      · rintro ⟨y, hx, rest⟩
        obtain ⟨ys', hxs, result⟩ := bind_eq_ok_iff.1 rest
        exact ⟨y, ys', hx, ih.1 hxs, (Except.ok.inj result).symm⟩
      · rintro ⟨y, ys', hx, hxs, rfl⟩
        exact ⟨y, hx, bind_eq_ok_iff.2 ⟨ys', ih.2 hxs, rfl⟩⟩

theorem exists_mem_of_forall₂ {r : α → β → Prop} {xs : List α} {ys : List β}
    (h : List.Forall₂ r xs ys) {y : β} (member : y ∈ ys) : ∃ x ∈ xs, r x y := by
  obtain ⟨k, bound, rfl⟩ := List.getElem_of_mem member
  have inside : k < xs.length := h.length_eq ▸ bound
  exact ⟨xs[k], List.getElem_mem inside, h.get inside bound⟩

theorem bind_eq_error_iff {x : Except ε α} {f : α → Except ε β} {e : ε} :
    (x >>= f) = .error e ↔ x = .error e ∨ ∃ a, x = .ok a ∧ f a = .error e := by
  cases x with
  | error found => simp
  | ok a => simp

theorem map_eq_error_iff {x : Except ε α} {f : α → β} {e : ε} :
    x.map f = .error e ↔ x = .error e := by
  cases x with
  | error found => simp [Except.map]
  | ok a => simp [Except.map]

/-- The error of a list is that of its first element with one. -/
theorem exists_of_mapM_eq_error {f : α → Except ε β} {xs : List α} {e : ε}
    (h : xs.mapM f = .error e) :
    ∃ before x after, xs = before ++ x :: after ∧ (∀ y ∈ before, ∃ b, f y = .ok b) ∧
      f x = .error e := by
  induction xs with
  | nil => cases h
  | cons x xs ih =>
      rw [List.mapM_cons, bind_eq_error_iff] at h
      rcases h with first | ⟨b, succeeded, rest⟩
      · exact ⟨[], x, xs, rfl, List.forall_mem_nil _, first⟩
      · rcases bind_eq_error_iff.1 rest with later | ⟨bs, -, result⟩
        · obtain ⟨before, y, after, rfl, others, failed⟩ := ih later
          exact ⟨x :: before, y, after, rfl, List.forall_mem_cons.2 ⟨⟨b, succeeded⟩, others⟩,
            failed⟩
        · cases result

theorem isOk_iff {x : Except ε α} : x.isOk = true ↔ ∃ a, x = .ok a := by
  cases x with
  | error e => simp [Except.isOk, Except.toBool]
  | ok a => simp [Except.isOk, Except.toBool]

/-! ## Two computations side by side -/

theorem forall₂_eq_iff_map_eq {f : α → β} {xs : List α} {ys : List β} :
    List.Forall₂ (fun a b => f a = b) xs ys ↔ xs.map f = ys := by
  rw [← List.forall₂_eq_eq_eq, List.forall₂_map_left_iff]

theorem forall₂_map_self {r : α → β → Prop} {f : α → β} (each : ∀ a, r a (f a)) (xs : List α) :
    List.Forall₂ r xs (xs.map f) :=
  List.forall₂_map_right_iff.2 (List.forall₂_same.2 fun a _ => each a)

/-- Which errors of two computations stand for each other, and which errors the first may end in
whatever the second does. -/
structure Tolerance (ε : Type) where
  alike : ε → ε → Prop
  excused : ε → Prop

def Tolerance.Exact (t : Tolerance ε) : Prop :=
  ∀ e, ¬ t.excused e

inductive Compares (t : Tolerance ε) (r : α → β → Prop) : Except ε α → Except ε β → Prop
  | ok {a : α} {b : β} (related : r a b) : Compares t r (.ok a) (.ok b)
  | error {e other : ε} (alike : t.alike e other) : Compares t r (.error e) (.error other)
  | excused {e : ε} (allowed : t.excused e) (y : Except ε β) : Compares t r (.error e) y

namespace Compares

variable {γ δ : Type} {t : Tolerance ε} {r : α → β → Prop} {q : γ → δ → Prop} {x : Except ε α}
  {y : Except ε β}

theorem refl (reflexive : ∀ e, t.alike e e) (x : Except ε α) : Compares t Eq x x := by
  cases x with
  | ok a => exact .ok rfl
  | error e => exact .error (reflexive e)

theorem exists_ok (h : Compares t r x y) {a : α} (made : x = .ok a) : ∃ b, y = .ok b ∧ r a b := by
  subst made
  cases h with
  | ok related => exact ⟨_, rfl, related⟩

theorem exists_ok_first (h : Compares t r x y) (exactly : t.Exact) {b : β} (made : y = .ok b) :
    ∃ a, x = .ok a ∧ r a b := by
  subst made
  cases h with
  | ok related => exact ⟨_, rfl, related⟩
  | excused allowed => exact absurd allowed (exactly _)

theorem exists_error (h : Compares t r x y) (exactly : t.Exact) {e : ε} (failed : x = .error e) :
    ∃ other, y = .error other ∧ t.alike e other := by
  subst failed
  cases h with
  | error alike => exact ⟨_, rfl, alike⟩
  | excused allowed => exact absurd allowed (exactly e)

theorem excused_of_error (h : Compares t r x y) {e : ε} {b : β} (failed : x = .error e)
    (made : y = .ok b) : t.excused e := by
  subst failed made
  cases h with
  | excused allowed => exact allowed

theorem mono {p : α → β → Prop} (h : Compares t r x y) (weaker : ∀ a b, r a b → p a b) :
    Compares t p x y := by
  cases h with
  | ok related => exact .ok (weaker _ _ related)
  | error alike => exact .error alike
  | excused allowed => exact .excused allowed _

theorem bind {k : α → Except ε γ} {l : β → Except ε δ} (first : Compares t r x y)
    (rest : ∀ a b, r a b → Compares t q (k a) (l b)) : Compares t q (x >>= k) (y >>= l) := by
  cases first with
  | ok related => exact rest _ _ related
  | error alike => exact .error alike
  | excused allowed => exact .excused allowed _

theorem map {m : α → γ} {n : β → δ} (h : Compares t r x y)
    (each : ∀ a b, r a b → q (m a) (n b)) : Compares t q (x.map m) (y.map n) := by
  cases h with
  | ok related => exact .ok (each _ _ related)
  | error alike => exact .error alike
  | excused allowed => exact .excused allowed _

theorem mapM {k : α → Except ε γ} {l : β → Except ε δ} {xs : List α} {ys : List β}
    (each : List.Forall₂ (fun a b => Compares t q (k a) (l b)) xs ys) :
    Compares t (List.Forall₂ q) (xs.mapM k) (ys.mapM l) := by
  induction each with
  | nil => exact .ok .nil
  | cons first rest ih =>
      rw [List.mapM_cons, List.mapM_cons]
      apply first.bind
      intro c d related
      apply ih.bind
      intro cs ds others
      exact .ok (.cons related others)

theorem foldlM {f : γ → α → Except ε γ} {g : δ → β → Except ε δ} {xs : List α} {ys : List β}
    (each : List.Forall₂ (fun a b => ∀ c d, q c d → Compares t q (f c a) (g d b)) xs ys) {c : γ}
    {d : δ} (start : q c d) : Compares t q (xs.foldlM f c) (ys.foldlM g d) := by
  induction each generalizing c d with
  | nil => exact .ok start
  | cons first rest ih =>
      rw [List.foldlM_cons, List.foldlM_cons]
      apply (first c d start).bind
      intro c d related
      exact ih related

theorem mapM_map {k : α → Except ε γ} {l : β → Except ε δ} {f : α → β} {g : γ → δ}
    (each : ∀ a, Compares t (fun c d => g c = d) (k a) (l (f a))) (xs : List α) :
    Compares t (fun cs ds => cs.map g = ds) (xs.mapM k) ((xs.map f).mapM l) := by
  have parts : Compares t (List.Forall₂ fun c d => g c = d) (xs.mapM k) ((xs.map f).mapM l) :=
    mapM (forall₂_map_self (f := f) each xs)
  exact parts.mono fun _ _ => forall₂_eq_iff_map_eq.1

end Compares

end WordMachine.Results
