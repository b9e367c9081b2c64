/-! # Effects step by step

A computation that carries a state and may fail ends in a value or in an error, and in a state
either way. These lemmas take such a computation apart at its binds, forwards where the first part
is known to succeed and backwards from the ending of the whole.
-/
namespace TriplePass.Effect
variable {ε σ α β : Type}

theorem bind_of_ok {x : EStateM ε σ α} {s t : σ} {a : α} (h : x s = .ok a t)
    (f : α → EStateM ε σ β) : (x >>= f) s = f a t := by
  simp only [bind, EStateM.bind, h]

theorem bind_of_error {x : EStateM ε σ α} {s t : σ} {e : ε} (h : x s = .error e t)
    (f : α → EStateM ε σ β) : (x >>= f) s = .error e t := by
  simp only [bind, EStateM.bind, h]

theorem map_of_ok {x : EStateM ε σ α} {s t : σ} {a : α} (h : x s = .ok a t) (g : α → β) :
    (g <$> x) s = .ok (g a) t := by
  rw [map_eq_pure_bind, bind_of_ok h]
  rfl

theorem map_of_error {x : EStateM ε σ α} {s t : σ} {e : ε} (h : x s = .error e t) (g : α → β) :
    (g <$> x) s = .error e t := by
  rw [map_eq_pure_bind, bind_of_error h]

theorem get_bind (f : σ → EStateM ε σ α) (s : σ) : (get >>= f) s = f s s := rfl

theorem set_bind (t : σ) (f : PUnit → EStateM ε σ α) (s : σ) : (set t >>= f) s = f ⟨⟩ t := rfl

/-- Two branches that go on alike are one computation that goes on. -/
theorem ite_bind (c : Prop) [Decidable c] (x y : EStateM ε σ α) (f : α → EStateM ε σ β) :
    (if c then x >>= f else y >>= f) = (if c then x else y) >>= f := by
  split <;> rfl

theorem tryCatch_of_ok {x : EStateM ε σ α} {s t : σ} {a : α} (h : x s = .ok a t)
    (handle : ε → EStateM ε σ α) : tryCatch x handle s = .ok a t := by
  change EStateM.tryCatch x handle s = _
  delta EStateM.tryCatch
  rw [h]

theorem tryCatch_of_error {x : EStateM ε σ α} {s t : σ} {e : ε} (h : x s = .error e t)
    (handle : ε → EStateM ε σ α) : tryCatch x handle s = handle e t := by
  change EStateM.tryCatch x handle s = _
  delta EStateM.tryCatch
  rw [h]
  rfl

theorem bind_ok {x : EStateM ε σ α} {f : α → EStateM ε σ β} {s u : σ} {b : β}
    (h : (x >>= f) s = .ok b u) : ∃ a t, x s = .ok a t ∧ f a t = .ok b u := by
  cases hx : x s with
  | ok a t => exact ⟨a, t, rfl, bind_of_ok hx f ▸ h⟩
  | error e t =>
    rw [bind_of_error hx f] at h
    cases h

theorem bind_error {x : EStateM ε σ α} {f : α → EStateM ε σ β} {s u : σ} {e : ε}
    (h : (x >>= f) s = .error e u) :
    x s = .error e u ∨ ∃ a t, x s = .ok a t ∧ f a t = .error e u := by
  cases hx : x s with
  | ok a t => exact .inr ⟨a, t, rfl, bind_of_ok hx f ▸ h⟩
  | error e' t =>
    rw [bind_of_error hx f] at h
    cases h
    exact .inl rfl

theorem map_ok {g : α → β} {x : EStateM ε σ α} {s u : σ} {b : β}
    (h : (g <$> x) s = .ok b u) : ∃ a, x s = .ok a u ∧ g a = b := by
  rw [map_eq_pure_bind] at h
  obtain ⟨a, t, hx, hb⟩ := bind_ok h
  cases hb
  exact ⟨a, hx, rfl⟩

theorem map_error {g : α → β} {x : EStateM ε σ α} {s u : σ} {e : ε}
    (h : (g <$> x) s = .error e u) : x s = .error e u := by
  rw [map_eq_pure_bind] at h
  rcases bind_error h with hx | ⟨a, t, _, hb⟩
  · exact hx
  · cases hb

/-- A fold that fails does so at an element, in the state that those before it have left. -/
theorem foldlM_error {f : β → α → EStateM ε σ β} {l : List α} {b : β} {s u : σ} {e : ε}
    (h : l.foldlM f b s = .error e u) :
    ∃ before a after b' t, l = before ++ a :: after ∧ before.foldlM f b s = .ok b' t ∧
      f b' a t = .error e u := by
  induction l generalizing b s with
  | nil => cases h
  | cons a l ih =>
    rw [List.foldlM_cons] at h
    rcases bind_error h with ha | ⟨b₁, s₁, ha, h⟩
    · exact ⟨[], a, l, b, s, rfl, rfl, ha⟩
    · obtain ⟨before, a', after, b', t, rfl, hbefore, ha'⟩ := ih h
      refine ⟨a :: before, a', after, b', t, rfl, ?_, ha'⟩
      rw [List.foldlM_cons, bind_of_ok ha, hbefore]

/-- What each step of a fold keeps, the whole fold keeps. -/
theorem foldlM_keeps {f : β → α → EStateM ε σ β} {P : β → σ → Prop}
    (hstep : ∀ b s a b' s', P b s → f b a s = .ok b' s' → P b' s') {l : List α} {b b' : β}
    {s s' : σ} (hb : P b s) (h : l.foldlM f b s = .ok b' s') : P b' s' := by
  induction l generalizing b s with
  | nil =>
    cases h
    exact hb
  | cons a l ih =>
    rw [List.foldlM_cons] at h
    obtain ⟨b₁, s₁, ha, h⟩ := bind_ok h
    exact ih (hstep _ _ _ _ _ hb ha) h

end TriplePass.Effect
