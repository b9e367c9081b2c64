import Mathlib.Data.List.Basic

/-! # Readings that fall apart

Bytes are decoded, and line endings turned into line feeds, in one pass that knows of what came
before only the state it is in. If a unit ends whatever is open and gives a result that comes of
nothing else, the reading falls apart at it: wherever that result stands, the unit stands in the
input, and either side is what its part of the input reads as on its own. For decoding, ASCII is
such a unit, however damaged the bytes around it are; for line endings, every character that is
none.
-/
namespace TriplePass.Text
variable {σ α β γ : Type}

/-! ### Parting a reading -/

/-- A result stands where its unit stands, and either side is read on its own. -/
def PartsAt (read : List α → List β) (a : α) (b : β) : Prop :=
  ∀ s front back, read s = front ++ b :: back ↔
    ∃ left right, s = left ++ a :: right ∧ read left = front ∧ read right = back

/-- Of results that are only renamed, the one must not be mistaken for another. -/
theorem PartsAt.map {read : List α → List β} {a : α} {b : β} {f : β → γ} (h : PartsAt read a b)
    (hf : ∀ x, f x = f b → x = b) : PartsAt (fun s => (read s).map f) a (f b) := by
  intro s front back
  simp only [List.map_eq_append_iff, List.map_eq_cons_iff]
  constructor
  · rintro ⟨results, _, hs, rfl, x, rest, rfl, hx, rfl⟩
    rw [hf x hx] at hs
    obtain ⟨left, right, rfl, rfl, rfl⟩ := (h s results rest).1 hs
    exact ⟨left, right, rfl, rfl, rfl⟩
  · rintro ⟨left, right, hs, rfl, rfl⟩
    exact ⟨read left, b :: read right, (h s _ _).2 ⟨left, right, hs, rfl, rfl⟩, rfl, b, read right,
      rfl, rfl, rfl⟩

/-- A reading that parts at each character of a word parts at the word. -/
theorem parts_at_word {read : List α → List β} {unit : β → α} {word : List β}
    (hnil : ∀ s, read s = [] ↔ s = []) (hword : word ≠ [])
    (hparts : ∀ b ∈ word, PartsAt read (unit b) b) {s : List α} {front back : List β} :
    read s = front ++ word ++ back ↔
      ∃ left right, s = left ++ word.map unit ++ right ∧ read left = front ∧ read right = back := by
  induction word generalizing s front with
  | nil => exact absurd rfl hword
  | cons b word ih =>
    obtain ⟨hb, hrest⟩ := List.forall_mem_cons.1 hparts
    rw [List.append_assoc, List.cons_append, hb]
    simp only [List.map_cons, List.append_assoc, List.cons_append]
    by_cases hempty : word = []
    · simp [hempty]
    · constructor
      · rintro ⟨left, right, rfl, rfl, hright⟩
        obtain ⟨between, behind, rfl, hbetween, rfl⟩ :=
          (@ih hempty hrest right []).1 (by rw [List.nil_append, hright])
        -- nothing has been read between the first character and the others
        obtain rfl := (hnil between).1 hbetween
        exact ⟨left, behind, by simp, rfl, rfl⟩
      · rintro ⟨left, behind, rfl, rfl, rfl⟩
        refine ⟨left, word.map unit ++ behind, rfl, rfl, ?_⟩
        have hword := (@ih hempty hrest (word.map unit ++ behind) []).2
          ⟨[], behind, by simp, (hnil []).2 rfl, rfl⟩
        rwa [List.nil_append] at hword

/-! ### Reading step by step -/

/-- A reading in one pass: what each unit gives in a state, and what is still open at the end. -/
structure Reader (σ α β : Type) where
  start : σ
  step : σ → α → List β × σ
  rest : σ → List β

namespace Reader

def readFrom (r : Reader σ α β) : σ → List α → List β
  | q, [] => r.rest q
  | q, a :: s => (r.step q a).1 ++ r.readFrom (r.step q a).2 s

def read (r : Reader σ α β) (s : List α) : List β :=
  r.readFrom r.start s

/-- In every state that the reader gets into, the unit ends what is open and gives the result. -/
structure Ends (r : Reader σ α β) (Reached : σ → Prop) (a : α) (b : β) : Prop where
  start : Reached r.start
  step : ∀ q, Reached q → ∀ x, Reached (r.step q x).2
  ends : ∀ q, Reached q → r.step q a = (r.rest q ++ [b], r.start)

structure Parts (r : Reader σ α β) (Reached : σ → Prop) (a : α) (b : β) : Prop
    extends r.Ends Reached a b where
  only : ∀ q, Reached q → ∀ x, b ∈ (r.step q x).1 → x = a
  rest : ∀ q, b ∉ r.rest q

variable {r : Reader σ α β} {Reached : σ → Prop} {a : α} {b : β} {q : σ}

theorem Ends.readFrom_append (h : r.Ends Reached a b) (hq : Reached q) (left right : List α) :
    r.readFrom q (left ++ a :: right) = r.readFrom q left ++ b :: r.read right := by
  induction left generalizing q with
  | nil =>
    simp only [List.nil_append, readFrom, h.ends q hq, List.append_assoc, List.singleton_append]
    rfl
  | cons x left ih =>
    rw [List.cons_append, readFrom, ih (h.step q hq x), readFrom, List.append_assoc]

theorem Ends.read_append (h : r.Ends Reached a b) (left right : List α) :
    r.read (left ++ a :: right) = r.read left ++ b :: r.read right :=
  h.readFrom_append h.start left right

theorem Parts.readFrom_eq_iff (h : r.Parts Reached a b) (hq : Reached q) {s : List α}
    {front back : List β} :
    r.readFrom q s = front ++ b :: back ↔
      ∃ left right, s = left ++ a :: right ∧ r.readFrom q left = front ∧ r.read right = back := by
  constructor
  · intro hs
    induction s generalizing q front with
    | nil =>
      have hmem : b ∈ r.rest q := by
        rw [show r.rest q = front ++ b :: back from hs]
        exact List.mem_append_right _ List.mem_cons_self
      exact absurd hmem (h.rest q)
    | cons x s ih =>
      rw [readFrom] at hs
      rcases List.append_eq_append_iff.1 hs with ⟨more, rfl, hmore⟩ | ⟨more, hstep, hmore⟩
      · obtain ⟨left, right, rfl, rfl, rfl⟩ := ih (h.step q hq x) hmore
        exact ⟨x :: left, right, rfl, rfl, rfl⟩
      cases more with
      | nil =>
        have hbehind : r.readFrom (r.step q x).2 s = [] ++ b :: back := hmore.symm
        obtain ⟨left, right, rfl, hleft, rfl⟩ := ih (h.step q hq x) hbehind
        refine ⟨x :: left, right, rfl, ?_, rfl⟩
        rw [readFrom, hleft, hstep, List.append_nil, List.append_nil]
      | cons c more =>
        obtain ⟨rfl, rfl⟩ := List.cons.inj hmore
        obtain rfl := h.only q hq x (by simp [hstep])
        rw [h.ends q hq] at hstep ⊢
        -- the unit gives its result once, behind all that was open
        obtain ⟨hrest, -, rfl⟩ :=
          (List.append_cons_inj_of_notMem (h.rest q) List.not_mem_nil).1 hstep
        exact ⟨[], s, rfl, hrest, rfl⟩
  · rintro ⟨left, right, rfl, rfl, rfl⟩
    exact h.readFrom_append hq left right

theorem Parts.partsAt (h : r.Parts Reached a b) : PartsAt r.read a b :=
  fun _ _ _ => h.readFrom_eq_iff h.start

end Reader
end TriplePass.Text
