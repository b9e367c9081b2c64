import TriplePass.Resolver

/-! # The answers of a resolver

Over one file tree a resolver answers every name as if it were asked for nothing else: what it
learns on the way changes no answer. A list of names is answered by the first of them that has an
answer.
-/
namespace TriplePass.Resolver
variable (t : FileTree) (workingDir : Place)

def answer (r : Resolver) (name : String) : Option Path :=
  (r.resolve t workingDir name).1

structure Agrees (r u : Resolver) : Prop where
  directories : u.directories = r.directories
  answer : ∀ name, u.answer t workingDir name = r.answer t workingDir name

variable {t workingDir}

theorem Agrees.refl (r : Resolver) : Agrees t workingDir r r :=
  ⟨rfl, fun _ => rfl⟩

theorem Agrees.trans {r u v : Resolver} (h : Agrees t workingDir r u)
    (h' : Agrees t workingDir u v) : Agrees t workingDir r v :=
  ⟨h'.directories.trans h.directories, fun name => (h'.answer name).trans (h.answer name)⟩

theorem Agrees.findSome? {r u : Resolver} (h : Agrees t workingDir r u) (names : List String) :
    names.findSome? (u.answer t workingDir) = names.findSome? (r.answer t workingDir) :=
  congrArg (names.findSome? ·) (funext h.answer)

theorem answer_of_known {r : Resolver} {name : String} {a : Option Path}
    (h : Dictionary.get? r.known name = some a) : r.answer t workingDir name = a := by
  simp only [answer, resolve, h]

theorem answer_of_unknown {r : Resolver} {name : String}
    (h : Dictionary.get? r.known name = none) :
    r.answer t workingDir name = lookup t workingDir r.directories name := by
  simp only [answer, resolve, h]

variable (t workingDir)

theorem resolve_agrees (r : Resolver) (name : String) :
    Agrees t workingDir r (r.resolve t workingDir name).2 := by
  cases h : Dictionary.get? r.known name with
  | some a =>
    simp only [resolve, h]
    exact .refl r
  | none =>
    simp only [resolve, h]
    refine ⟨rfl, fun q => ?_⟩
    by_cases hq : q = name
    · subst q
      rw [answer_of_unknown h]
      exact answer_of_known (by rw [Dictionary.get?_set, if_pos rfl])
    · -- no other name is touched, known or not
      have hset : Dictionary.get? (r.known.set name (lookup t workingDir r.directories name)) q =
          Dictionary.get? r.known q := by
        rw [Dictionary.get?_set, if_neg hq]
      cases hk : Dictionary.get? r.known q with
      | some a => rw [answer_of_known hk, answer_of_known (hset.trans hk)]
      | none => rw [answer_of_unknown hk, answer_of_unknown (hset.trans hk)]

theorem preferred_spec (r : Resolver) (names : List String) :
    (preferred t workingDir r names).1 = names.findSome? (r.answer t workingDir) ∧
      Agrees t workingDir r (preferred t workingDir r names).2 := by
  induction names generalizing r with
  | nil => exact ⟨rfl, .refl r⟩
  | cons name rest ih =>
    have hr := resolve_agrees t workingDir r name
    have ha : r.answer t workingDir name = (r.resolve t workingDir name).1 := rfl
    rcases hres : r.resolve t workingDir name with ⟨found, u⟩
    rw [hres] at hr ha
    cases found with
    | some path =>
      simp only [preferred, hres, List.findSome?_cons, ha]
      exact ⟨trivial, hr⟩
    | none =>
      obtain ⟨hfirst, hagrees⟩ := ih u
      simp only [preferred, hres, List.findSome?_cons, ha]
      exact ⟨hfirst.trans (hr.findSome? rest), hr.trans hagrees⟩

end TriplePass.Resolver
