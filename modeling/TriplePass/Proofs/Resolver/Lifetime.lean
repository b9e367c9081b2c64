import TriplePass.Proofs.Resolver.Answers

/-! # The lifetime of a resolver

A resolver is asked for names, alone or in lists, while the files around it change. Whatever the
order, a name is looked for once: all later answers for it are what was found then, or that nothing
was found. A list is asked name by name and no further than to the first name with an answer.
-/
namespace TriplePass.Resolver

structure Moment where
  tree : FileTree
  workingDir : Place

inductive Turn where
  | resolve (name : String)
  | preferred (names : List String)
  | change (m : Moment)

structure Scene where
  moment : Moment
  resolver : Resolver

namespace Scene

def turn (s : Scene) : Turn → Option Path × Scene
  | .resolve name =>
    let (found, r) := s.resolver.resolve s.moment.tree s.moment.workingDir name
    (found, { s with resolver := r })
  | .preferred names =>
    let (found, r) := Resolver.preferred s.moment.tree s.moment.workingDir s.resolver names
    (found, { s with resolver := r })
  | .change m => (none, { s with moment := m })

def play (s : Scene) : List Turn → List (Option Path) × Scene
  | [] => ([], s)
  | turn :: rest =>
    let (found, s) := s.turn turn
    let (more, s) := s.play rest
    (found :: more, s)

end Scene

/-! ### What has been looked for -/

structure Consultation where
  name : String
  moment : Moment

def Consultation.found (dirs : List Path) (c : Consultation) : Option Path :=
  lookup c.moment.tree c.moment.workingDir dirs c.name

/-- The names up to the first that has an answer, that one included. -/
def upTo (answer : String → Option Path) (names : List String) : List String :=
  names.take (names.findIdx (fun name => (answer name).isSome) + 1)

structure History where
  moment : Moment
  consultations : List Consultation := []

namespace History

/-- When a name was looked for first; it is now if it never was. -/
def first (h : History) (name : String) : Consultation :=
  (h.consultations.find? (·.name = name)).getD ⟨name, h.moment⟩

def remembered (dirs : List Path) (h : History) (name : String) : Option Path :=
  (h.first name).found dirs

def answer (dirs : List Path) (h : History) : Turn → Option Path
  | .resolve name => h.remembered dirs name
  | .preferred names => names.findSome? (h.remembered dirs)
  | .change _ => none

def asked (dirs : List Path) (h : History) : Turn → List String
  | .resolve name => [name]
  | .preferred names => upTo (h.remembered dirs) names
  | .change _ => []

def after (h : History) : Turn → Moment
  | .change m => m
  | _ => h.moment

def turn (dirs : List Path) (h : History) (turn : Turn) : History where
  moment := h.after turn
  consultations := h.consultations ++ (h.asked dirs turn).map (⟨·, h.moment⟩)

def play (dirs : List Path) (h : History) : List Turn → List (Option Path) × History
  | [] => ([], h)
  | turn :: rest =>
    let (more, h') := (h.turn dirs turn).play dirs rest
    (h.answer dirs turn :: more, h')

end History

/-! ### Asking name by name -/

variable {t : FileTree} {workingDir : Place} {dirs : List Path} {r u : Resolver}
  {name q : String} {names : List String} {h : History} {s : Scene}

def askEach (t : FileTree) (workingDir : Place) (names : List String) (r : Resolver) : Resolver :=
  names.foldl (fun r name => (r.resolve t workingDir name).2) r

theorem upTo_cons_some {answer : String → Option Path} (h : (answer name).isSome = true) :
    upTo answer (name :: names) = [name] := by
  rw [upTo, List.findIdx_cons, h]
  rfl

theorem upTo_cons_none {answer : String → Option Path} (h : answer name = none) :
    upTo answer (name :: names) = name :: upTo answer names := by
  rw [upTo, List.findIdx_cons, h]
  rfl

/-- A list is asked like its names up to the first that has an answer, and nothing else is. -/
theorem preferred_askEach (t : FileTree) (workingDir : Place) (r : Resolver)
    (names : List String) :
    (preferred t workingDir r names).2 =
      askEach t workingDir (upTo (r.answer t workingDir) names) r := by
  induction names generalizing r with
  | nil => rfl
  | cons name rest ih =>
    have hagrees := resolve_agrees t workingDir r name
    have hanswer : r.answer t workingDir name = (r.resolve t workingDir name).1 := rfl
    rcases hres : r.resolve t workingDir name with ⟨found, u⟩
    rw [hres] at hagrees hanswer
    cases found with
    | some path =>
      rw [upTo_cons_some (by rw [hanswer]; rfl)]
      simp only [preferred, askEach, List.foldl_cons, List.foldl_nil, hres]
    | none =>
      -- the rest is asked with the same answers, though one more name is known
      have hsame : u.answer t workingDir = r.answer t workingDir := funext hagrees.answer
      rw [upTo_cons_none hanswer, ← hsame]
      simp only [preferred, askEach, List.foldl_cons, hres]
      exact ih u

/-! ### What a resolver knows -/

/-- The resolver knows the names that were looked for, and of each what was found first. -/
structure Remembers (dirs : List Path) (h : History) (s : Scene) : Prop where
  moment : s.moment = h.moment
  directories : s.resolver.directories = dirs
  known : ∀ name, Dictionary.get? s.resolver.known name =
    (h.consultations.find? (·.name = name)).map (Consultation.found dirs)

theorem Remembers.fresh (dirs : List Path) (m : Moment) :
    Remembers dirs ⟨m, []⟩ ⟨m, { directories := dirs }⟩ :=
  ⟨rfl, rfl, fun _ => rfl⟩

theorem Remembers.answer (hs : Remembers dirs h s) (name : String) :
    s.resolver.answer s.moment.tree s.moment.workingDir name = h.remembered dirs name := by
  have hknown := hs.known name
  unfold History.remembered History.first
  cases hfirst : h.consultations.find? (·.name = name) with
  | some c =>
    rw [hfirst] at hknown
    exact answer_of_known hknown
  | none =>
    rw [hfirst] at hknown
    rw [answer_of_unknown hknown, hs.directories, hs.moment]
    rfl

theorem Remembers.answers (hs : Remembers dirs h s) :
    s.resolver.answer s.moment.tree s.moment.workingDir = h.remembered dirs :=
  funext hs.answer

theorem find?_concat (cs : List Consultation) (c : Consultation) (name : String) :
    (cs ++ [c]).find? (·.name = name) =
      (cs.find? (·.name = name)).or (if c.name = name then some c else none) := by
  rw [List.find?_append, List.find?_singleton]
  simp

/-- Asking for one name adds a look at the files of the moment. -/
theorem Remembers.resolve (hs : Remembers dirs h s) (name : String) :
    Remembers dirs { h with consultations := h.consultations ++ [⟨name, h.moment⟩] }
      { s with resolver :=
        (s.resolver.resolve s.moment.tree s.moment.workingDir name).2 } := by
  have hname := hs.known name
  cases hk : Dictionary.get? s.resolver.known name with
  | some found =>
    -- the name was looked for before, and that look still comes first
    simp only [Resolver.resolve, hk]
    refine ⟨hs.moment, hs.directories, fun q => ?_⟩
    rw [find?_concat, hs.known q]
    by_cases hq : name = q
    · subst hq
      rw [hk] at hname
      obtain ⟨c, hc, -⟩ := Option.map_eq_some_iff.1 hname.symm
      rw [hc, Option.some_or]
    · rw [if_neg hq, Option.or_none]
  | none =>
    simp only [Resolver.resolve, hk]
    refine ⟨hs.moment, hs.directories, fun q => ?_⟩
    rw [find?_concat, Dictionary.get?_set, hs.known q]
    by_cases hq : name = q
    · subst hq
      rw [hk] at hname
      rw [if_pos rfl, if_pos rfl, Option.map_eq_none_iff.1 hname.symm, hs.directories, hs.moment]
      rfl
    · rw [if_neg hq, if_neg (Ne.symm hq), Option.or_none]

theorem Remembers.askEach (hs : Remembers dirs h s) (names : List String) :
    Remembers dirs { h with consultations := h.consultations ++ names.map (⟨·, h.moment⟩) }
      { s with resolver :=
        askEach s.moment.tree s.moment.workingDir names s.resolver } := by
  induction names generalizing h s with
  | nil => simpa [Resolver.askEach] using hs
  | cons name rest ih => simpa [Resolver.askEach] using ih (hs.resolve name)

/-- One turn gives what is recalled, and what it asks for is remembered. -/
theorem Remembers.turn (hs : Remembers dirs h s) (turn : Turn) :
    (s.turn turn).1 = h.answer dirs turn ∧ Remembers dirs (h.turn dirs turn) (s.turn turn).2 := by
  cases turn with
  | resolve name => exact ⟨hs.answer name, hs.resolve name⟩
  | preferred names =>
    obtain ⟨hfirst, -⟩ :=
      preferred_spec s.moment.tree s.moment.workingDir s.resolver names
    rw [hs.answers] at hfirst
    refine ⟨hfirst, ?_⟩
    have hasked := hs.askEach (upTo (h.remembered dirs) names)
    rwa [← hs.answers, ← preferred_askEach, hs.answers] at hasked
  | change m =>
    refine ⟨rfl, rfl, hs.directories, ?_⟩
    simp only [History.turn, History.asked, List.map_nil, List.append_nil]
    exact hs.known

/-- Over a whole life the answers are those that are recalled. -/
theorem Remembers.play (hs : Remembers dirs h s) (turns : List Turn) :
    (s.play turns).1 = (h.play dirs turns).1 ∧
      Remembers dirs (h.play dirs turns).2 (s.play turns).2 := by
  induction turns generalizing h s with
  | nil => exact ⟨rfl, hs⟩
  | cons turn rest ih =>
    obtain ⟨hanswer, hturn⟩ := hs.turn turn
    obtain ⟨hmore, hrest⟩ := ih hturn
    refine ⟨?_, hrest⟩
    change (s.turn turn).1 :: ((s.turn turn).2.play rest).1 =
      h.answer dirs turn :: ((h.turn dirs turn).play dirs rest).1
    rw [hanswer, hmore]

/-! ### What a look-up leaves alone -/

/-- From one scene to the next only names that were asked for may have become known, and no name has
another answer. -/
structure Unmoved (asked : List String) (s s' : Scene) : Prop where
  moment : s'.moment = s.moment
  directories : s'.resolver.directories = s.resolver.directories
  answer : ∀ name, s'.resolver.answer s.moment.tree s.moment.workingDir name =
    s.resolver.answer s.moment.tree s.moment.workingDir name
  unasked : ∀ name ∉ asked,
    Dictionary.get? s'.resolver.known name = Dictionary.get? s.resolver.known name

/-- A name that is not asked for is no better known than before. -/
theorem Remembers.unasked (hs : Remembers dirs h s) (turn : Turn)
    (hname : name ∉ h.asked dirs turn) :
    Dictionary.get? (s.turn turn).2.resolver.known name =
      Dictionary.get? s.resolver.known name := by
  have hnone : ((h.asked dirs turn).map (⟨·, h.moment⟩ : String → Consultation)).find?
      (·.name = name) = none := by
    rw [List.find?_eq_none]
    intro c hc hfound
    obtain ⟨asked, hasked, rfl⟩ := List.mem_map.1 hc
    exact hname (of_decide_eq_true hfound ▸ hasked)
  rw [(hs.turn turn).2.known name, hs.known name, History.turn, List.find?_append, hnone,
    Option.or_none]

theorem Remembers.unmoved_resolve (hs : Remembers dirs h s) (name : String) :
    Unmoved [name] s (s.turn (.resolve name)).2 := by
  have hagrees := resolve_agrees s.moment.tree s.moment.workingDir s.resolver name
  exact ⟨rfl, hagrees.directories, hagrees.answer, fun _ hq => hs.unasked (.resolve name) hq⟩

theorem Remembers.unmoved_preferred (hs : Remembers dirs h s) (names : List String) :
    Unmoved (upTo (h.remembered dirs) names) s (s.turn (.preferred names)).2 := by
  obtain ⟨-, hagrees⟩ := preferred_spec s.moment.tree s.moment.workingDir s.resolver names
  exact ⟨rfl, hagrees.directories, hagrees.answer, fun _ hq => hs.unasked (.preferred names) hq⟩

/-- Through any row of look-ups and changes, a resolver answers every name with what was found when
it was looked for first, knows exactly the names that were asked for, and with each look-up leaves
the files, its directories and the answers for all other names alone. -/
theorem answers_stable (dirs : List Path) (m : Moment) (turns : List Turn) :
    let (answers, s) := Scene.play ⟨m, { directories := dirs }⟩ turns
    let (recalled, h) := History.play dirs ⟨m, []⟩ turns
    answers = recalled ∧ Remembers dirs h s ∧
      (∀ name, Unmoved [name] s (s.turn (.resolve name)).2) ∧
      ∀ names, Unmoved (upTo (h.remembered dirs) names) s (s.turn (.preferred names)).2 ∧
        (s.turn (.preferred names)).2.resolver =
          askEach s.moment.tree s.moment.workingDir (upTo (h.remembered dirs) names)
            s.resolver := by
  obtain ⟨hanswers, hs⟩ := (Remembers.fresh dirs m).play turns
  refine ⟨hanswers, hs, hs.unmoved_resolve, fun names => ⟨hs.unmoved_preferred names, ?_⟩⟩
  rw [← hs.answers]
  exact preferred_askEach _ _ _ names

/-- A miss stays a miss when the program comes, and a name behind it is looked for only then. -/
example :
    let bin : FileTree :=
      { entries := [(["bin"], .directory), (["bin", "dmd"], .file true []),
          (["bin", "ldmd2"], .file true [])] }
    (Scene.play ⟨⟨{}, []⟩, { directories := [Path.ofString "bin"] }⟩
      [.resolve "dmd", .change ⟨bin, []⟩, .preferred ["dmd", "ldmd2"], .resolve "dmd"]).1 =
        [none, none, some (Path.ofString "bin/ldmd2"), none] := by
  decide

end TriplePass.Resolver
