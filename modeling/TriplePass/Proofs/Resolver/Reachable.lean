import TriplePass.Proofs.Path
import TriplePass.Proofs.Resolver.Answers

/-! # Resolvers in use

A resolver starts with nothing known and is then asked for names, while files come and go. Every
program that it answers is one of the paths tried for the name, so a program found by a bare name
goes by that name.
-/
namespace TriplePass.Resolver
variable {t : FileTree} {workingDir : Place} {dirs : List Path} {r : Resolver} {name : String}
  {path : Path}

inductive Reachable (dirs : List Path) : Resolver → Prop where
  | fresh : Reachable dirs { directories := dirs }
  | asked (t : FileTree) (workingDir : Place) (name : String) {r : Resolver} :
    Reachable dirs r → Reachable dirs (r.resolve t workingDir name).2

/-- What is known of a name was once tried for it. -/
structure Faithful (dirs : List Path) (r : Resolver) : Prop where
  directories : r.directories = dirs
  known : ∀ name path, Dictionary.get? r.known name = some (some path) →
    ∃ candidate ∈ candidates dirs name, path = Path.ofString candidate

theorem lookup_candidate (h : lookup t workingDir dirs name = some path) :
    ∃ candidate ∈ candidates dirs name, path = Path.ofString candidate := by
  obtain ⟨candidate, hfind, rfl⟩ := Option.map_eq_some_iff.1 h
  exact ⟨candidate, List.mem_of_find?_eq_some hfind, rfl⟩

theorem Faithful.answer (hr : r.Faithful dirs) (h : r.answer t workingDir name = some path) :
    ∃ candidate ∈ candidates dirs name, path = Path.ofString candidate := by
  cases hknown : Dictionary.get? r.known name with
  | some found =>
    rw [answer_of_known hknown] at h
    exact hr.known name path (h ▸ hknown)
  | none =>
    rw [answer_of_unknown hknown, hr.directories] at h
    exact lookup_candidate h

theorem Faithful.resolve (hr : r.Faithful dirs)
    (t : FileTree) (workingDir : Place) (name : String) :
    (r.resolve t workingDir name).2.Faithful dirs := by
  cases hknown : Dictionary.get? r.known name with
  | some found =>
    simp only [Resolver.resolve, hknown]
    exact hr
  | none =>
    simp only [Resolver.resolve, hknown]
    refine ⟨hr.directories, ?_⟩
    intro q path hq
    rw [Dictionary.get?_set] at hq
    by_cases hname : q = name
    · rw [if_pos hname, hr.directories] at hq
      rw [hname]
      exact lookup_candidate (Option.some.inj hq)
    · rw [if_neg hname] at hq
      exact hr.known q path hq

theorem Reachable.faithful (h : Reachable dirs r) :
    r.Faithful dirs := by
  induction h with
  | fresh => exact ⟨rfl, fun name path h => nomatch h⟩
  | asked t workingDir name _ ih => exact ih.resolve t workingDir name

/-! ### The names of programs -/

def IsBare (name : String) : Prop :=
  hasSlash name = false ∧ Path.isName name = true

theorem slash_not_mem (h : hasSlash name = false) : '/' ∉ name.toList := by
  intro hmem
  have hslash : hasSlash name = true := List.contains_iff_mem.2 hmem
  rw [h] at hslash
  exact Bool.false_ne_true hslash

theorem name_below (dir : String) (hname : IsBare name) :
    (Path.ofString (below dir name)).name = name := by
  have hslash := slash_not_mem hname.1
  unfold below
  split
  · rw [Path.name, Path.names_of_name hslash hname.2]
    rfl
  · split
    next hend =>
      -- the directory ends in a slash of its own
      obtain ⟨front, hfront⟩ := List.isSuffixOf_iff_suffix.1 hend
      refine Path.name_append front hslash hname.2 ?_
      rw [String.toList_append, ← hfront, List.append_assoc]
      rfl
    next =>
      refine Path.name_append dir.toList hslash hname.2 ?_
      rw [String.toList_append, String.toList_append, List.append_assoc]
      rfl

theorem candidate_of_bare {candidate : String}
    (hname : IsBare name) (h : candidate ∈ candidates dirs name) :
    (Path.ofString candidate).name = name := by
  unfold candidates at h
  split at h
  · cases h
  · rw [hname.1, if_neg Bool.false_ne_true] at h
    obtain ⟨dir, _, rfl⟩ := List.mem_map.1 h
    exact name_below dir hname

theorem candidate_of_slash {candidate : String}
    (hname : hasSlash name = true) (h : candidate ∈ candidates dirs name) :
    candidate = name := by
  unfold candidates at h
  split at h
  · cases h
  · exact List.mem_singleton.1 h

theorem Faithful.name_of_bare (hr : r.Faithful dirs)
    (hname : IsBare name) (h : r.answer t workingDir name = some path) : path.name = name := by
  obtain ⟨candidate, hc, rfl⟩ := hr.answer h
  exact candidate_of_bare hname hc

theorem Faithful.path_of_slash (hr : r.Faithful dirs)
    (hname : hasSlash name = true) (h : r.answer t workingDir name = some path) :
    path = Path.ofString name := by
  obtain ⟨candidate, hc, rfl⟩ := hr.answer h
  rw [candidate_of_slash hname hc]

theorem Faithful.name_fixed (hr : r.Faithful dirs)
    (h : r.answer t workingDir name = some path) :
    (Path.ofString path.name).name = path.name := by
  obtain ⟨candidate, _, rfl⟩ := hr.answer h
  exact Path.name_ofString_name candidate

end TriplePass.Resolver
