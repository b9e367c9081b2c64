import Mathlib.Data.List.Nodup
import TriplePass.Proofs.Coverage.Survey
import TriplePass.Proofs.FileTree.Removal

/-! # What surveys delete

Whatever the sources are called, a survey deletes listings in its own directory and nothing else:
each of them a regular file or a link to one at the moment it goes, a link without what it leads to.
A survey that returns has told of every one of them once, in the order in which they went, and of
none that the system has kept.
-/
namespace TriplePass.Coverage
open FileTree (IsPlain Thinned)
variable {t u v : FileTree} {workingDir place q : Place} {dir : Path} {r r' : Report} {e : Errno}
  {name : String} {names : List String}

/-! ### Deleting listings one by one -/

/-- A listing that can be deleted: it has a name of its own in the directory, which ends as the
names of listings do, and is a regular file or a link to one. -/
structure IsListing (t : FileTree) (workingDir : Place) (dir : Path) (place : Place)
    (name : String) : Prop where
  plain : IsPlain name
  extension : Text.endsWith name listingExtension = true
  file : t.FileOrLink workingDir (dir.child name) (place ++ [name])

inductive Deletions (workingDir : Place) (dir : Path) :
    FileTree → List String → FileTree → Prop where
  | done (t : FileTree) : Deletions workingDir dir t [] t
  | delete {t u : FileTree} {place : Place} {name : String} {names : List String} :
      t.locate workingDir dir = .ok place → IsListing t workingDir dir place name →
      Deletions workingDir dir (t.remove (place ++ [name])) names u →
      Deletions workingDir dir t (name :: names) u

theorem IsListing.present (h : IsListing t workingDir dir place name) :
    t.entryAt (place ++ [name]) ≠ none := by
  cases h.file with
  | file _ _ hentry =>
    rw [hentry]
    exact Option.some_ne_none _
  | link _ _ _ _ hentry =>
    rw [hentry]
    exact Option.some_ne_none _

namespace Deletions
variable {more : List String}

theorem thinned (h : Deletions workingDir dir t names u) : Thinned t u := by
  induction h with
  | done t => exact .refl t
  | delete _ _ _ ih => exact .remove _ ih

theorem trans (h : Deletions workingDir dir t names u) (h' : Deletions workingDir dir u more v) :
    Deletions workingDir dir t (names ++ more) v := by
  induction h with
  | done => exact h'
  | delete hplace hlisting _ ih => exact .delete hplace hlisting (ih h')

/-- All the deletions happen in one place, where the directory is found at first: it may be found
nowhere later on, but not elsewhere. -/
theorem present (hplace : ∀ q, t.locate workingDir dir = .ok q → q = place)
    (h : Deletions workingDir dir t names u) : ∀ name ∈ names, t.entryAt (place ++ [name]) ≠ none := by
  induction h with
  | done => exact fun _ hname => absurd hname List.not_mem_nil
  | @delete t u place' name names hlocate hlisting _ ih =>
    cases hplace place' hlocate
    have hlater := ih fun q hq => hplace q ((t.locate_remove _ workingDir dir).ok hq)
    intro name' hname'
    rcases List.mem_cons.1 hname' with rfl | hname'
    · exact hlisting.present
    · have hentry := hlater name' hname'
      rcases t.entryAt_remove_cases (place ++ [name]) (place ++ [name']) with hsame | hnone
      · exact hsame ▸ hentry
      · exact absurd hnone hentry

theorem nodup (hplace : ∀ q, t.locate workingDir dir = .ok q → q = place)
    (h : Deletions workingDir dir t names u) : names.Nodup := by
  induction h with
  | done => exact List.nodup_nil
  | @delete t u place' name names hlocate hlisting hrest ih =>
    cases hplace place' hlocate
    have hplace' : ∀ q, (t.remove (place ++ [name])).locate workingDir dir = .ok q → q = place :=
      fun q hq => hplace q ((t.locate_remove _ workingDir dir).ok hq)
    refine List.nodup_cons.2 ⟨fun hagain => ?_, ih hplace'⟩
    exact hrest.present hplace' name hagain (t.entryAt_remove_self (by simp))

/-- The names that were deleted are gone, and all other places are as before. -/
theorem entryAt (hplace : ∀ q, t.locate workingDir dir = .ok q → q = place)
    (h : Deletions workingDir dir t names u) (q : Place) :
    u.entryAt q = if ∃ name ∈ names, q = place ++ [name] then none else t.entryAt q := by
  induction h with
  | done => rw [if_neg fun ⟨_, hname, _⟩ => List.not_mem_nil hname]
  | @delete t u place' name names hlocate hlisting hrest ih =>
    cases hplace place' hlocate
    rw [ih fun q hq => hplace q ((t.locate_remove _ workingDir dir).ok hq)]
    by_cases hlater : ∃ name' ∈ names, q = place ++ [name']
    · obtain ⟨name', hname', hq⟩ := hlater
      rw [if_pos ⟨name', hname', hq⟩, if_pos ⟨name', List.mem_cons_of_mem _ hname', hq⟩]
    rw [if_neg hlater]
    by_cases hq : q = place ++ [name]
    · rw [if_pos ⟨name, List.mem_cons_self, hq⟩, hq, t.entryAt_remove_self (by simp)]
    · rw [t.entryAt_remove_other hq, if_neg]
      rintro ⟨name', hname', hq'⟩
      rcases List.mem_cons.1 hname' with rfl | hname'
      · exact hq hq'
      · exact hlater ⟨name', hname', hq'⟩

end Deletions

/-! ### What each part of a survey deletes -/

/-- What leads to a file goes as a listing, unless it is kept. -/
theorem deletions_unlinked (hdir : dir.toString ≠ "") (hplain : IsPlain name)
    (hextension : Text.endsWith name listingExtension = true)
    (hfile : t.isFile workingDir (dir.child name) = .ok true)
    (hgoes : t.keeps workingDir dir name = false) :
    Deletions workingDir dir t [name] (t.unlinked workingDir dir name) := by
  obtain ⟨place, hplace, hlisting⟩ := FileTree.fileOrLink_of_isFile hplain hdir hfile
  have hlisted : IsListing t workingDir dir place name := ⟨hplain, hextension, hlisting⟩
  rw [FileTree.unlinked_of_goes hplace (Option.isSome_iff_ne_none.2 hlisted.present) hgoes]
  exact .delete hplace hlisted (.done _)

theorem endsWith_listingName (source : String) :
    Text.endsWith (listingName source) listingExtension = true := by
  have hextension : listingExtension.toList = ['.', 'l', 's', 't'] := rfl
  rw [Text.endsWith, toList_listingName, hextension]
  exact List.isSuffixOf_iff_suffix.2 (List.suffix_append _ _)

theorem Processed.deletions {s : Source} (hdir : dir.toString ≠ "")
    (h : Processed workingDir dir s t r r' u) :
    ∃ names, Deletions workingDir dir t names u ∧
      r'.consumed = r.consumed ++ names.map dir.child ∧ r'.removed = r.removed := by
  cases h with
  | consumed _ hfile hgoes =>
    exact ⟨[listingName s.path], deletions_unlinked hdir (isPlain_listingName s.path)
      (endsWith_listingName s.path) hfile hgoes, rfl, rfl⟩
  | ignored | skipped | kept | absent => exact ⟨[], .done t, (List.append_nil _).symm, rfl⟩

theorem foldlM_deletions {sources : List Source} (hdir : dir.toString ≠ "")
    (h : sources.foldlM (processOne workingDir dir) r t = .ok r' u) :
    ∃ names, Deletions workingDir dir t names u ∧
      r'.consumed = r.consumed ++ names.map dir.child ∧ r'.removed = r.removed := by
  refine Effect.foldlM_keeps
    (P := fun r' u => ∃ names, Deletions workingDir dir t names u ∧
      r'.consumed = r.consumed ++ names.map dir.child ∧ r'.removed = r.removed) ?_
    ⟨[], .done t, (List.append_nil _).symm, rfl⟩ h
  rintro r₁ v s r₂ w ⟨names, hnames, hconsumed, hremoved⟩ hone
  obtain ⟨more, hmore, hconsumed', hremoved'⟩ := (processOne_ok hone).deletions hdir
  refine ⟨names ++ more, hnames.trans hmore, ?_, hremoved'.trans hremoved⟩
  rw [hconsumed', hconsumed, List.map_append, List.append_assoc]

theorem process_deletions {sources : List Source} (hdir : dir.toString ≠ "")
    (h : process workingDir dir sources t = .ok r u) :
    ∃ names, Deletions workingDir dir t names u ∧ r.consumed = names.map dir.child ∧
      r.removed = [] :=
  foldlM_deletions hdir h

variable {lastSource : Option String} {gone : List Path}

theorem cleanEach_deletions (hdir : dir.toString ≠ "")
    (hnames : ∀ name ∈ names, IsPlain name ∧ Text.endsWith name listingExtension = true)
    (h : cleanEach workingDir dir lastSource names t = .ok gone u) :
    ∃ deleted, Deletions workingDir dir t deleted u ∧ gone = deleted.map dir.child := by
  induction names generalizing t gone with
  | nil =>
    cases h
    exact ⟨[], .done _, rfl⟩
  | cons name rest ih =>
    obtain ⟨removed, v, hone, h⟩ := Effect.bind_ok h
    obtain ⟨more, w, hrest, h⟩ := Effect.bind_ok h
    cases h
    obtain ⟨hplain, hextension⟩ := hnames name List.mem_cons_self
    obtain ⟨deleted, hdeleted, hmore⟩ :=
      ih (fun name hname => hnames name (List.mem_cons_of_mem _ hname)) hrest
    rcases cleanOne_cases hone with ⟨rfl, hfile, hgoes, rfl⟩ | ⟨rfl, rfl⟩
    · have hfirst := deletions_unlinked hdir hplain hextension hfile hgoes
      refine ⟨name :: deleted, hfirst.trans hdeleted, ?_⟩
      rw [if_pos rfl, List.map_cons, hmore]
    · exact ⟨deleted, hdeleted, hmore⟩

theorem listingNames_fit (ht : t.WellNamed) (hname : name ∈ listingNames t workingDir dir) :
    IsPlain name ∧ Text.endsWith name listingExtension = true := by
  cases hplace : t.locate workingDir dir with
  | error e =>
    rw [listingNames_unlocated hplace] at hname
    exact absurd hname List.not_mem_nil
  | ok place =>
    have hmem := FileTree.mem_of_entryAt (by simp) (listingNames_entry hplace hname)
    obtain ⟨entry, hentry, hat⟩ := List.mem_map.1 hmem
    exact ⟨ht entry hentry name (hat ▸ by simp), ((mem_listingNames_iff hplace).1 hname).2.2⟩

/-- A cleaning that returns has gone through the names in its directory, if it is one. -/
theorem cleanup_cases (h : cleanup workingDir dir lastSource t = .ok gone u) :
    (t.isDirectory workingDir dir = .ok false ∧ gone = [] ∧ u = t) ∨
      (t.isDirectory workingDir dir = .ok true ∧
        cleanEach workingDir dir lastSource (listingNames t workingDir dir) t = .ok gone u) := by
  obtain ⟨isDirectory, v, hask, h⟩ := Effect.bind_ok h
  unfold Survey.asking at hask
  cases hanswer : t.isDirectory workingDir dir with
  | error e =>
    simp only [hanswer] at hask
    cases hask
  | ok answer =>
    simp only [hanswer] at hask
    cases hask
    cases isDirectory with
    | false =>
      cases h
      exact .inl ⟨rfl, rfl, rfl⟩
    | true =>
      simp only [if_true] at h
      rw [Effect.get_bind] at h
      exact .inr ⟨rfl, h⟩

theorem cleanup_of_directory (h : t.isDirectory workingDir dir = .ok true) :
    cleanup workingDir dir lastSource t =
      cleanEach workingDir dir lastSource (listingNames t workingDir dir) t := by
  have hask : Survey.asking (·.isDirectory workingDir dir) t = .ok true t := by
    rw [Survey.asking, h]
  rw [cleanup, Effect.bind_of_ok hask, if_pos rfl, Effect.get_bind]

theorem cleanup_of_missing (h : t.isDirectory workingDir dir = .ok false) :
    cleanup workingDir dir lastSource t = .ok [] t := by
  have hask : Survey.asking (·.isDirectory workingDir dir) t = .ok false t := by
    rw [Survey.asking, h]
  rw [cleanup, Effect.bind_of_ok hask, if_neg Bool.false_ne_true]
  rfl

theorem cleanup_deletions (hdir : dir.toString ≠ "") (ht : t.WellNamed)
    (h : cleanup workingDir dir lastSource t = .ok gone u) :
    ∃ names, Deletions workingDir dir t names u ∧ gone = names.map dir.child := by
  rcases cleanup_cases h with ⟨_, rfl, rfl⟩ | ⟨_, h⟩
  · exact ⟨[], .done _, rfl⟩
  · exact cleanEach_deletions hdir (fun name hname => listingNames_fit ht hname) h

theorem CleaningBrokenOff.deletions (hdir : dir.toString ≠ "") (ht : t.WellNamed)
    (h : CleaningBrokenOff workingDir dir lastSource t e u gone) :
    ∃ names, Deletions workingDir dir t names u := by
  cases h with
  | directory => exact ⟨[], .done _⟩
  | listing hnames hclean =>
    obtain ⟨deleted, hdeleted, -⟩ := cleanEach_deletions hdir
      (fun name hname => listingNames_fit ht (hnames ▸ List.mem_append_left _ hname)) hclean
    exact ⟨deleted, hdeleted⟩

theorem run_cases {sources : List Source} (h : run workingDir dir sources t = .ok r u) :
    ∃ report v removed, process workingDir dir sources t = .ok report v ∧
      cleanup workingDir dir report.lastSource v = .ok removed u ∧
      r = { report with removed := removed } := by
  obtain ⟨report, v, hprocess, h⟩ := Effect.bind_ok h
  obtain ⟨removed, w, hclean, h⟩ := Effect.bind_ok h
  cases h
  exact ⟨report, v, removed, hprocess, hclean, rfl⟩

theorem run_of_parts {report : Report} {removed : List Path}
    (hprocess : process workingDir dir sources t = .ok report u)
    (hclean : cleanup workingDir dir report.lastSource u = .ok removed v) :
    run workingDir dir sources t = .ok { report with removed := removed } v := by
  rw [run, Effect.bind_of_ok hprocess, Effect.bind_of_ok hclean]
  rfl

/-! ### Sessions -/

inductive Step where
  | process (sources : List Source)
  | cleanup (lastSource : Option String)
  | run (sources : List Source)

def Step.survey (workingDir : Place) (dir : Path) : Step → Survey Report
  | .process sources => Coverage.process workingDir dir sources
  | .cleanup lastSource =>
    (fun removed => { removed := removed }) <$> Coverage.cleanup workingDir dir lastSource
  | .run sources => Coverage.run workingDir dir sources

def Step.leaves (workingDir : Place) (dir : Path) (t : FileTree) (s : Step) : FileTree :=
  match s.survey workingDir dir t with
  | .ok _ u => u
  | .error _ u => u

def session (workingDir : Place) (dir : Path) (steps : List Step) (t : FileTree) : FileTree :=
  steps.foldl (Step.leaves workingDir dir) t

theorem Step.deletions_ok (hdir : dir.toString ≠ "") (ht : t.WellNamed) {s : Step}
    (h : s.survey workingDir dir t = .ok r u) :
    ∃ names, Deletions workingDir dir t names u ∧ r.consumed ++ r.removed = names.map dir.child := by
  cases s with
  | process sources =>
    obtain ⟨names, hnames, hconsumed, hremoved⟩ := process_deletions hdir h
    refine ⟨names, hnames, ?_⟩
    rw [hconsumed, hremoved, List.append_nil]
  | cleanup lastSource =>
    obtain ⟨gone, hclean, rfl⟩ := Effect.map_ok h
    obtain ⟨names, hnames, rfl⟩ := cleanup_deletions hdir ht hclean
    exact ⟨names, hnames, rfl⟩
  | run sources =>
    obtain ⟨report, v, gone, hprocess, hclean, rfl⟩ := run_cases h
    obtain ⟨names, hnames, hconsumed, -⟩ := process_deletions hdir hprocess
    obtain ⟨more, hmore, hgone⟩ := cleanup_deletions hdir (ht.thinned hnames.thinned) hclean
    refine ⟨names ++ more, hnames.trans hmore, ?_⟩
    rw [hconsumed, hgone, List.map_append]

theorem process_error_deletions {sources : List Source} (hdir : dir.toString ≠ "")
    (h : process workingDir dir sources t = .error e u) :
    ∃ names, Deletions workingDir dir t names u := by
  obtain ⟨-, report, before, s, after, -, hbefore, -⟩ := process_stopped h
  obtain ⟨names, hnames, -⟩ := process_deletions hdir hbefore
  exact ⟨names, hnames⟩

theorem cleanup_error_deletions (hdir : dir.toString ≠ "") (ht : t.WellNamed)
    (h : cleanup workingDir dir lastSource t = .error e u) :
    ∃ names, Deletions workingDir dir t names u := by
  obtain ⟨-, gone, hbroken⟩ := cleanup_error h
  exact hbroken.deletions hdir ht

theorem Step.deletions_error (hdir : dir.toString ≠ "") (ht : t.WellNamed) {s : Step}
    (h : s.survey workingDir dir t = .error e u) : ∃ names, Deletions workingDir dir t names u := by
  cases s with
  | process sources => exact process_error_deletions hdir h
  | cleanup lastSource => exact cleanup_error_deletions hdir ht (Effect.map_error h)
  | run sources =>
    obtain ⟨-, hbroken⟩ := run_error hdir h
    rcases hbroken with ⟨report, ⟨before, s, after, -, hbefore, -⟩, -⟩ |
      ⟨report, v, gone, hprocess, hclean, -⟩
    · obtain ⟨names, hnames, -⟩ := process_deletions hdir hbefore
      exact ⟨names, hnames⟩
    · obtain ⟨names, hnames, -⟩ := process_deletions hdir hprocess
      obtain ⟨more, hmore⟩ := hclean.deletions hdir (ht.thinned hnames.thinned)
      exact ⟨names ++ more, hnames.trans hmore⟩

/-- What deleting these listings has done to the files: nothing is new or changed, and what has
vanished are the names in the directory, each once. -/
structure Tidied (workingDir : Place) (dir : Path) (t : FileTree) (names : List String)
    (u : FileTree) : Prop where
  deletions : Deletions workingDir dir t names u
  distinct : names.Nodup
  kept : ∀ q entry, u.entryAt q = some entry → t.entryAt q = some entry
  vanished : ∀ q, (t.entryAt q ≠ none ∧ u.entryAt q = none) ↔
    ∃ place, t.locate workingDir dir = .ok place ∧ ∃ name ∈ names, q = place ++ [name]

theorem Deletions.tidied (h : Deletions workingDir dir t names u) :
    Tidied workingDir dir t names u := by
  cases hlocate : t.locate workingDir dir with
  | error e =>
    cases h with
    | delete hplace => cases hlocate.symm.trans hplace
    | done =>
      refine ⟨.done t, List.nodup_nil, fun _ _ hentry => hentry, fun q => ⟨?_, ?_⟩⟩
      · rintro ⟨hsome, hnone⟩
        exact absurd hnone hsome
      · rintro ⟨place, hplace, -⟩
        cases hlocate.symm.trans hplace
  | ok place =>
    have hplace : ∀ q, t.locate workingDir dir = .ok q → q = place := by
      intro q hq
      exact (Except.ok.inj (hlocate.symm.trans hq)).symm
    refine ⟨h, h.nodup hplace, fun q entry hentry => ?_, fun q => ⟨?_, ?_⟩⟩
    · rcases h.thinned.entryAt q with hsame | hnone
      · exact hsame ▸ hentry
      · cases hnone.symm.trans hentry
    · rintro ⟨hsome, hnone⟩
      rw [h.entryAt hplace q] at hnone
      split at hnone
      next hname => exact ⟨place, hlocate, hname⟩
      next => exact absurd hnone hsome
    · rintro ⟨place', hplace', name, hname, rfl⟩
      cases hplace place' hplace'
      refine ⟨h.present hplace name hname, ?_⟩
      rw [h.entryAt hplace, if_pos ⟨name, hname, rfl⟩]

theorem Step.tidied (s : Step) (workingDir : Place) (hdir : dir.toString ≠ "")
    (ht : t.WellNamed) :
    ∃ names, Tidied workingDir dir t names (s.leaves workingDir dir t) ∧
      ∀ r u, s.survey workingDir dir t = .ok r u →
        r.consumed ++ r.removed = names.map dir.child := by
  unfold Step.leaves
  cases h : s.survey workingDir dir t with
  | ok r u =>
    obtain ⟨names, hnames, htold⟩ := s.deletions_ok hdir ht h
    refine ⟨names, hnames.tidied, ?_⟩
    intro r' u' hok
    cases hok
    exact htold
  | error e u =>
    obtain ⟨names, hnames⟩ := s.deletions_error hdir ht h
    refine ⟨names, hnames.tidied, ?_⟩
    intro r' u' hok
    cases hok

theorem session_deletions (workingDir : Place) (hdir : dir.toString ≠ "") (ht : t.WellNamed)
    (steps : List Step) :
    ∃ names, Deletions workingDir dir t names (session workingDir dir steps t) := by
  induction steps generalizing t with
  | nil => exact ⟨[], .done t⟩
  | cons s rest ih =>
    obtain ⟨names, hnames, -⟩ := s.tidied workingDir hdir ht
    obtain ⟨more, hmore⟩ := ih (ht.thinned hnames.deletions.thinned)
    exact ⟨names ++ more, hnames.deletions.trans hmore⟩

theorem child_injective (dir : Path) : Function.Injective dir.child := by
  intro name name' h
  have hnames : dir.names ++ [name] = dir.names ++ [name'] := congrArg Path.names h
  exact List.singleton_inj.1 (List.append_cancel_left hnames)

/-- In every session of surveys on a directory nothing but listings in it is deleted, in the whole
and in each step; and a step that returns has told of what it deleted, in order and each once. -/
theorem session_deletes_listings (workingDir : Place) (dir : String) (ht : t.WellNamed)
    (steps : List Step) :
    (∃ names, Tidied workingDir (Path.ofString dir) t names
      (session workingDir (Path.ofString dir) steps t)) ∧
    ∀ before s after, steps = before ++ s :: after →
      let v := session workingDir (Path.ofString dir) before t
      ∃ names, Tidied workingDir (Path.ofString dir) v names
          (session workingDir (Path.ofString dir) (before ++ [s]) t) ∧
        ∀ r u, s.survey workingDir (Path.ofString dir) v = .ok r u →
          u = session workingDir (Path.ofString dir) (before ++ [s]) t ∧
          r.consumed ++ r.removed = names.map (Path.ofString dir).child ∧
          (r.consumed ++ r.removed).Nodup := by
  have hdir := Path.toString_ofString_ne_empty dir
  constructor
  · obtain ⟨names, hnames⟩ := session_deletions workingDir hdir ht steps
    exact ⟨names, hnames.tidied⟩
  · intro before s after _
    obtain ⟨earlier, hearlier⟩ := session_deletions workingDir hdir ht before
    obtain ⟨names, htidied, htold⟩ :=
      s.tidied workingDir hdir (ht.thinned hearlier.thinned)
    have hlast : session workingDir (Path.ofString dir) (before ++ [s]) t =
        s.leaves workingDir (Path.ofString dir)
          (session workingDir (Path.ofString dir) before t) := by
      rw [session, List.foldl_append]
      rfl
    refine ⟨names, hlast ▸ htidied, fun r u hreturned => ⟨?_, htold r u hreturned, ?_⟩⟩
    · rw [hlast, Step.leaves, hreturned]
    · rw [htold r u hreturned]
      exact List.Nodup.map (child_injective _) htidied.distinct

/-! ### A directory with links -/

def zeroRow : Bytes :=
  List.replicate 7 48 ++ [124, 10]

def linkedTree : FileTree where
  entries :=
    [(["lib.lst"], .file false zeroRow), (["app.lst"], .link "lib.lst"),
      (["old-mod.lst"], .file false []), (["old-view.lst"], .link "old-mod.lst"),
      (["main.d"], .file false [])]

def linkedSources : List Source :=
  [{ path := "app.d", hasTests := true }, { path := "main.d", isEntryPoint := true },
    { path := "./lib.d", hasTests := true }]

def linkedReport : Report where
  diagnostics := [uncoveredWarning "app.d" 1, skipNotice { path := "main.d", isEntryPoint := true },
    uncoveredWarning "./lib.d" 1]
  consumed := [Path.ofString "app.lst", Path.ofString "lib.lst"]
  removed := [Path.ofString "old-mod.lst"]
  lastSource := some "./lib.d"

/-- The old link leads nowhere by the time it is looked at. -/
def danglingTree : FileTree where
  entries := [(["old-view.lst"], .link "old-mod.lst"), (["main.d"], .file false [])]

theorem run_linkedTree :
    run [] (Path.ofString ".") linkedSources linkedTree = .ok linkedReport danglingTree := by
  let t : FileTree := { entries := (["old-mod.lst"], .file false []) :: danglingTree.entries }
  have hprocess : process [] (Path.ofString ".") linkedSources linkedTree =
      .ok { linkedReport with removed := [] } t := rfl
  have hdirectory : t.isDirectory [] (Path.ofString ".") = .ok true := rfl
  have hnames : listingNames t [] (Path.ofString ".") = ["old-mod.lst", "old-view.lst"] :=
    listingNames_of_pairwise rfl rfl rfl (by decide)
  have hclean : cleanup [] (Path.ofString ".") linkedReport.lastSource t =
      .ok linkedReport.removed danglingTree := by
    rw [cleanup_of_directory hdirectory, hnames]
    rfl
  exact run_of_parts hprocess hclean

/-- A link goes without the listing that it leads to, which goes in its turn. -/
theorem session_deletes_listings_linked :
    linkedTree.WellNamed ∧
      ∃ names, Tidied [] (Path.ofString ".") linkedTree names danglingTree ∧
        [Path.ofString "app.lst", Path.ofString "lib.lst", Path.ofString "old-mod.lst"] =
          names.map (Path.ofString ".").child := by
  have hnamed : linkedTree.WellNamed := by decide
  obtain ⟨-, hsteps⟩ := session_deletes_listings [] "." hnamed
    [.run linkedSources, .cleanup (some "../lib.d")]
  obtain ⟨names, htidied, htold⟩ := hsteps [] (.run linkedSources) [.cleanup (some "../lib.d")] rfl
  obtain ⟨hleft, hlisted, -⟩ := htold linkedReport danglingTree run_linkedTree
  exact ⟨hnamed, names, hleft ▸ htidied, hlisted⟩

end TriplePass.Coverage
