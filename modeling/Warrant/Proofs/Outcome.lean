import Mathlib.Data.List.Forall2

/-!
# Computations that may fail

What a computation that succeeded was made of, and what a list of computations gives: the results
one by one, related to what they were computed from.

**Results.**
* `exists_of_map_eq_ok`, `exists_of_bind_eq_ok`: the parts of a computation that succeeded.
* `toOption_eq_some_iff`, `mapError_eq_ok_iff`, `bind_eq_ok_iff`: when a computation succeeds.
* `map_eq_error_iff`, `bind_eq_error_iff`: when it fails, and how.
* `bind_congr_of_ok`: what may follow a computation.
* `mapM_eq_ok_iff`, `mapM_eq_error_iff`: a list of computations succeeds item by item, and fails
  as the first one that fails does.
* `map_mapM_congr`: its results mapped one by one.
* `exists_right_of_forall₂`, `exists_left_of_forall₂`, `exists_forall₂_iff`: the partner of an item.
-/

namespace Warrant

section Parts

variable {α β ε : Type} {read : Except ε α} {b : β}

theorem exists_of_map_eq_ok
    {f : α → β}
    (h : read.map f = .ok b) :
    ∃ a, read = .ok a ∧ f a = b := by
  cases read with
  | error e => cases h
  | ok a =>
      cases h
      exact ⟨a, rfl, rfl⟩

theorem toOption_eq_some_iff
    {a : α} :
    read.toOption = some a ↔ read = .ok a := by
  cases read with
  | error e => exact ⟨nofun, nofun⟩
  | ok a' =>
      constructor
      · rintro ⟨⟩
        rfl
      · rintro ⟨⟩
        rfl

theorem exists_of_bind_eq_ok
    {next : α → Except ε β}
    (h : (do let a ← read; next a) = .ok b) :
    ∃ a, read = .ok a ∧ next a = .ok b := by
  cases read with
  | error e => cases h
  | ok a => exact ⟨a, rfl, h⟩

theorem mapError_eq_ok_iff
    {ε' : Type}
    {f : ε → ε'}
    {a : α} :
    read.mapError f = .ok a ↔ read = .ok a := by
  cases read with
  | error e => exact ⟨nofun, nofun⟩
  | ok a' => simp only [Except.mapError, Except.ok.injEq]

theorem bind_eq_ok_iff
    {next : α → Except ε β} :
    (do let a ← read; next a) = .ok b ↔ ∃ a, read = .ok a ∧ next a = .ok b := by
  constructor
  · exact exists_of_bind_eq_ok
  · rintro ⟨a, rfl, h⟩
    exact h

theorem map_eq_error_iff
    {f : α → β}
    {e : ε} :
    read.map f = .error e ↔ read = .error e := by
  cases read with
  | error e' => simp only [Except.map, Except.error.injEq]
  | ok a => exact ⟨nofun, nofun⟩

theorem bind_eq_error_iff
    {next : α → Except ε β}
    {e : ε} :
    (do let a ← read; next a) = .error e ↔
      read = .error e ∨ ∃ a, read = .ok a ∧ next a = .error e := by
  cases read with
  | error e' =>
      constructor
      · rintro ⟨⟩
        exact Or.inl rfl
      · rintro (⟨⟨⟩⟩ | ⟨a, ⟨⟩, -⟩)
        rfl
  | ok a =>
      constructor
      · intro h
        exact Or.inr ⟨a, rfl, h⟩
      · rintro (⟨⟨⟩⟩ | ⟨a', ⟨⟩, h⟩)
        exact h

/-- What comes after a computation counts only where it succeeds. -/
theorem bind_congr_of_ok
    {next next' : α → Except ε β}
    (h : ∀ a, read = .ok a → next a = next' a) :
    (do let a ← read; next a) = (do let a ← read; next' a) := by
  cases read with
  | error e => rfl
  | ok a => exact h a rfl

end Parts

section Related

variable {α β : Type} {R : α → β → Prop} {xs : List α} {ys : List β}

theorem exists_right_of_forall₂
    (h : List.Forall₂ R xs ys)
    {x : α} (hx : x ∈ xs) :
    ∃ y ∈ ys, R x y := by
  induction h with
  | nil => simp at hx
  | @cons x' y xs ys hxy _ ih =>
      rcases List.mem_cons.1 hx with rfl | hx
      · exact ⟨y, List.mem_cons_self, hxy⟩
      · obtain ⟨y', hy', hr⟩ := ih hx
        exact ⟨y', List.mem_cons_of_mem y hy', hr⟩

theorem exists_left_of_forall₂
    (h : List.Forall₂ R xs ys)
    {y : β} (hy : y ∈ ys) :
    ∃ x ∈ xs, R x y :=
  exists_right_of_forall₂ h.flip hy

theorem exists_forall₂_iff :
    (∃ ys, List.Forall₂ R xs ys) ↔ ∀ x ∈ xs, ∃ y, R x y := by
  constructor
  · rintro ⟨ys, h⟩ x hx
    obtain ⟨y, -, hxy⟩ := exists_right_of_forall₂ h hx
    exact ⟨y, hxy⟩
  · intro h
    induction xs with
    | nil => exact ⟨[], List.Forall₂.nil⟩
    | cons x xs ih =>
        obtain ⟨⟨y, hy⟩, hrest⟩ := List.forall_mem_cons.1 h
        obtain ⟨ys, hys⟩ := ih hrest
        exact ⟨y :: ys, List.Forall₂.cons hy hys⟩

theorem forall₂_mem
    (h : List.Forall₂ R xs ys) :
    List.Forall₂ (fun x y => x ∈ xs ∧ R x y) xs ys :=
  (List.forall₂_and_left xs ys).2 ⟨fun _ hx => hx, h⟩

theorem forall₂_congr_of_mem
    {S : α → β → Prop}
    (h : ∀ x ∈ xs, ∀ y, R x y ↔ S x y) :
    List.Forall₂ R xs ys ↔ List.Forall₂ S xs ys :=
  ⟨fun hr => (forall₂_mem hr).imp fun x y hxy => (h x hxy.1 y).1 hxy.2,
    fun hs => (forall₂_mem hs).imp fun x y hxy => (h x hxy.1 y).2 hxy.2⟩

/-- A list of computations succeeds item by item. -/
theorem mapM_eq_ok_iff
    {ε : Type}
    {f : α → Except ε β} :
    xs.mapM f = .ok ys ↔ List.Forall₂ (fun x y => f x = .ok y) xs ys := by
  induction xs generalizing ys with
  | nil =>
      constructor
      · rintro ⟨⟩
        exact List.Forall₂.nil
      · rintro ⟨⟩
        rfl
  | cons x xs ih =>
      rw [List.mapM_cons]
      constructor
      · intro h
        obtain ⟨y, hy, hrest⟩ := exists_of_bind_eq_ok h
        obtain ⟨ys', hys, hcons⟩ := exists_of_bind_eq_ok hrest
        cases hcons
        exact List.Forall₂.cons hy (ih.1 hys)
      · intro h
        cases h with
        | cons hy hys =>
            rw [hy, ih.2 hys]
            rfl

theorem exists_mapM_iff
    {ε : Type}
    {f : α → Except ε β} :
    (∃ ys, xs.mapM f = .ok ys) ↔ ∀ x ∈ xs, ∃ y, f x = .ok y := by
  simp only [mapM_eq_ok_iff, exists_forall₂_iff]

/-- A list of computations fails as the first one that fails does. -/
theorem mapM_eq_error_iff
    {ε : Type}
    {f : α → Except ε β}
    {e : ε} :
    xs.mapM f = .error e ↔
      ∃ before x after, xs = before ++ x :: after ∧ (∀ y ∈ before, ∃ b, f y = .ok b) ∧
        f x = .error e := by
  induction xs with
  | nil =>
      constructor
      · rintro ⟨⟩
      · rintro ⟨before, x, after, hsplit, -, -⟩
        simp at hsplit
  | cons x xs ih =>
      rw [List.mapM_cons]
      cases hx : f x with
      | error e' =>
          constructor
          · rintro ⟨⟩
            exact ⟨[], x, xs, rfl, by simp, hx⟩
          · rintro ⟨before, x', after, hsplit, hbefore, hfault⟩
            rcases List.cons_eq_append_iff.1 hsplit with ⟨rfl, hcons⟩ | ⟨before', rfl, -⟩
            · cases hcons
              rw [hx] at hfault
              cases hfault
              rfl
            · obtain ⟨b, hb⟩ := hbefore x List.mem_cons_self
              rw [hx] at hb
              cases hb
      | ok y =>
          have hrest : (do let y ← Except.ok y; let ys ← xs.mapM f; pure (y :: ys)) =
              .error e ↔ xs.mapM f = .error e := by
            cases xs.mapM f with
            | error e' => exact Iff.rfl
            | ok ys => exact ⟨nofun, nofun⟩
          rw [hrest, ih]
          constructor
          · rintro ⟨before, x', after, rfl, hbefore, hfault⟩
            exact ⟨x :: before, x', after, rfl, List.forall_mem_cons.2 ⟨⟨y, hx⟩, hbefore⟩, hfault⟩
          · rintro ⟨before, x', after, hsplit, hbefore, hfault⟩
            rcases List.cons_eq_append_iff.1 hsplit with ⟨rfl, hcons⟩ | ⟨before', rfl, rfl⟩
            · cases hcons
              rw [hx] at hfault
              cases hfault
            · exact ⟨before', x', after, rfl, (List.forall_mem_cons.1 hbefore).2, hfault⟩

/-- A list of computations whose results are mapped is that of the mapped computations. -/
theorem map_mapM_congr
    {ε γ : Type}
    {f : α → Except ε β} {f' : α → Except ε γ} {g : β → γ}
    (h : ∀ x ∈ xs, (f x).map g = f' x) :
    (xs.mapM f).map (List.map g) = xs.mapM f' := by
  induction xs with
  | nil => rfl
  | cons x xs ih =>
      obtain ⟨hx, hxs⟩ := List.forall_mem_cons.1 h
      rw [List.mapM_cons, List.mapM_cons, ← hx, ← ih hxs]
      cases f x with
      | error e => rfl
      | ok y => cases xs.mapM f <;> rfl

end Related

end Warrant
