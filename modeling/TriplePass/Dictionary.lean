/-! # Dictionaries

Names with their values, each name at most once; setting a name that is already there replaces
its value and keeps its place.
-/
namespace TriplePass

abbrev Dictionary (β : Type) := List (String × β)

abbrev Environment := Dictionary String

namespace Dictionary
variable {β : Type}

def get? (d : Dictionary β) (name : String) : Option β :=
  List.lookup name d

def set : Dictionary β → String → β → Dictionary β
  | [], name, value => [(name, value)]
  | (n, v) :: rest, name, value =>
    if n = name then (name, value) :: rest else (n, v) :: set rest name value

/-- The entries of `d`, with those of `upper` set on top one after the other. -/
def overlay (d upper : Dictionary β) : Dictionary β :=
  upper.foldl (fun d e => set d e.1 e.2) d

/-- The entries under changed names; of two that come to share a name the later one stays. -/
def rename (change : String → String) (d : Dictionary β) : Dictionary β :=
  overlay [] (d.map fun e => (change e.1, e.2))

theorem get?_set (d : Dictionary β) (name : String) (value : β) (q : String) :
    (d.set name value).get? q = if q = name then some value else d.get? q := by
  unfold get?
  induction d with
  | nil =>
    by_cases h : q = name
    · simp [set, h]
    · simp [set, h, List.lookup_cons, show (q == name) = false by simp [h]]
  | cons e rest ih =>
    obtain ⟨n, v⟩ := e
    by_cases hn : n = name
    · subst hn
      by_cases h : q = n
      · simp [set, h]
      · simp [set, h, List.lookup_cons, show (q == n) = false by simp [h]]
    · by_cases h : q = name
      · subst h
        have hq : (q == n) = false := by simpa using fun h => hn h.symm
        simp [set, hn, List.lookup_cons, hq, ih]
      · simp only [set, hn, if_false, List.lookup_cons, ih, h]

theorem overlay_cons (d : Dictionary β) (e : String × β) (upper : Dictionary β) :
    overlay d (e :: upper) = overlay (d.set e.1 e.2) upper := rfl

end Dictionary
end TriplePass
