import TriplePass.Proofs.Coverage.Listing
import TriplePass.Proofs.Coverage.Rerun

/-! # The lines that surveys report

A survey of sources that have something to run reports nothing but lines that never executed:
source by source in the given order, and for each source in ascending order. The first look at a
source consumes its listing, so a source that is given twice is reported on at most once, unless the
system keeps the listing: then the same lines are reported again. Listings go but never come or
change meanwhile: what is reported of a source is what its listing held when the survey began.
-/
namespace TriplePass.Coverage
open FileTree (Thinned)
variable {t u : FileTree} {workingDir : Place} {dir : Path} {r r' : Report} {s : Source}
  {sources : List Source}

/-! ### The lines of one listing -/

theorem ascending_numbersFrom {α : Type} (n : Nat) (p : α → Bool) (rows : List α) :
    (numbersFrom n p rows).Pairwise (· < ·) := by
  induction rows generalizing n with
  | nil => exact .nil
  | cons row rows ih =>
    rw [numbersFrom_cons]
    split
    · exact .cons (fun k hk => le_of_mem_numbersFrom hk) (ih (n + 1))
    · exact ih (n + 1)

theorem uncovered_eq (content : Bytes) :
    uncovered content = numbersFrom 1 isZeroLine (Text.lines (Text.ofContent content)) :=
  zeroLinesFrom_eq 1 _

structure Group where
  source : String
  lines : List Nat
  ascending : lines.Pairwise (· < ·)
  positive : ∀ n ∈ lines, 1 ≤ n

namespace Group

def warnings (g : Group) : List Diagnostic :=
  g.lines.map (uncoveredWarning g.source)

def empty (source : String) : Group where
  source
  lines := []
  ascending := .nil
  positive := fun _ hn => absurd hn List.not_mem_nil

def ofListing (source : String) (t : FileTree) (workingDir : Place) (listing : Path) : Group where
  source
  lines := uncoveredAt t workingDir listing
  ascending := by
    unfold uncoveredAt
    split
    · rw [uncovered_eq]
      exact ascending_numbersFrom 1 _ _
    · exact .nil
  positive := by
    unfold uncoveredAt
    split
    · rw [uncovered_eq]
      exact fun n hn => le_of_mem_numbersFrom hn
    · exact fun n hn => absurd hn List.not_mem_nil

def Told (g : Group) (t : FileTree) (workingDir : Place) (dir : Path) : Prop :=
  g.lines = [] ∨ g.lines = uncoveredAt t workingDir (listingAt dir g.source)

theorem mem_warnings {g : Group} {d : Diagnostic} (hd : d ∈ g.warnings) :
    d.severity = .warning ∧ d.file = g.source ∧ ∃ n : Nat, 1 ≤ n ∧ d.line = some (n : Int) := by
  obtain ⟨n, hn, rfl⟩ := List.mem_map.1 hd
  exact ⟨rfl, rfl, n, g.positive n hn, rfl⟩

end Group

/-! ### The lines of all sources -/

/-- Of two groups of one source the later one is empty, or the same where the listing is kept. -/
def SaidOnce (t : FileTree) (workingDir : Place) (dir : Path) (groups : List Group) : Prop :=
  groups.Pairwise fun g later => g.source = later.source →
    later.lines = [] ∨ (ListingKept t workingDir dir later.source ∧ later.lines = g.lines)

theorem SaidOnce.before {groups : List Group} (h : SaidOnce u workingDir dir groups)
    (htu : Thinned t u) (hdir : dir.toString ≠ "") : SaidOnce t workingDir dir groups :=
  h.imp fun hlater hsame => (hlater hsame).imp_right fun ⟨hkept, hlines⟩ =>
    ⟨hkept.before htu hdir, hlines⟩

def Grouped (t : FileTree) (workingDir : Place) (dir : Path) (paths : List String)
    (diagnostics : List Diagnostic) : Prop :=
  ∃ groups : List Group, groups.map Group.source = paths ∧
    groups.flatMap Group.warnings = diagnostics ∧ SaidOnce t workingDir dir groups ∧
    ∀ g ∈ groups, g.Told t workingDir dir

theorem Grouped.mem {paths : List String} {diagnostics : List Diagnostic}
    (h : Grouped t workingDir dir paths diagnostics) {d : Diagnostic} (hd : d ∈ diagnostics) :
    d.severity = .warning ∧ d.file ∈ paths ∧ ∃ n : Nat, 1 ≤ n ∧ d.line = some (n : Int) := by
  obtain ⟨groups, rfl, rfl, -, -⟩ := h
  obtain ⟨g, hg, hd⟩ := List.mem_flatMap.1 hd
  obtain ⟨hseverity, hfile, hline⟩ := g.mem_warnings hd
  exact ⟨hseverity, hfile ▸ List.mem_map_of_mem hg, hline⟩

theorem uncoveredAt_thinned (h : Thinned t u) (workingDir : Place) (listing : Path) :
    uncoveredAt u workingDir listing = uncoveredAt t workingDir listing ∨
      uncoveredAt u workingDir listing = [] := by
  unfold uncoveredAt
  rcases h.read workingDir listing with hread | hread
  · rw [hread]
    exact .inl rfl
  · rw [hread]
    exact .inr rfl

theorem Group.Told.thinned {g : Group} (h : g.Told u workingDir dir) (htu : Thinned t u) :
    g.Told t workingDir dir := by
  rcases h with hnone | hlines
  · exact .inl hnone
  · rcases uncoveredAt_thinned htu workingDir (listingAt dir g.source) with hsame | hgone
    · exact .inr (hlines.trans hsame)
    · exact .inl (hlines.trans hgone)

/-- A source that is surveyed adds a group, which is empty without a listing, and has the lines of a
listing that is kept. -/
theorem Processed.group (hdir : dir.toString ≠ "") (hs : IsSurveyed s)
    (h : Processed workingDir dir s t r r' u) :
    ∃ g : Group, g.source = s.path ∧ r'.diagnostics = r.diagnostics ++ g.warnings ∧
      g.Told t workingDir dir ∧
      (t.isFile workingDir (listingAt dir s.path) = .ok false → g.lines = []) ∧
      (ListingKept u workingDir dir s.path →
        g.lines = uncoveredAt u workingDir (listingAt dir s.path)) := by
  have hlisted : t.isFile workingDir (listingAt dir s.path) = .ok true →
      t.isFile workingDir (listingAt dir s.path) ≠ .ok false := by
    intro hfile
    rw [hfile]
    simp
  cases h with
  | ignored harg => cases hs.1.symm.trans harg
  | skipped _ hskip => cases hs.2.symm.trans hskip
  | consumed _ hfile hgoes =>
    have hgone := FileTree.isFile_unlinked (isPlain_listingName s.path) hdir hfile hgoes
    exact ⟨.ofListing s.path t workingDir (listingAt dir s.path), rfl, rfl, .inr rfl,
      fun hnone => absurd hnone (hlisted hfile), fun hkept => by cases hgone.symm.trans hkept.1⟩
  | kept _ hfile =>
    exact ⟨.ofListing s.path t workingDir (listingAt dir s.path), rfl, rfl, .inr rfl,
      fun hnone => absurd hnone (hlisted hfile), fun _ => rfl⟩
  | absent _ hfile =>
    have hsame : r.diagnostics = r.diagnostics ++ [] := (List.append_nil _).symm
    exact ⟨.empty s.path, rfl, hsame, .inl rfl, fun _ => rfl,
      fun hkept => by cases hfile.symm.trans hkept.1⟩

/-- A source without a listing has none later on, so its group is empty wherever it comes. -/
theorem foldlM_grouped (hdir : dir.toString ≠ "") (hsources : ∀ s ∈ sources, IsSurveyed s)
    (h : sources.foldlM (processOne workingDir dir) r t = .ok r' u) :
    ∃ groups : List Group, groups.map Group.source = sources.map (·.path) ∧
      r'.diagnostics = r.diagnostics ++ groups.flatMap Group.warnings ∧
      SaidOnce t workingDir dir groups ∧
      ∀ g ∈ groups, g.Told t workingDir dir ∧
        (t.isFile workingDir (listingAt dir g.source) = .ok false → g.lines = []) := by
  induction sources generalizing r t with
  | nil =>
    cases h
    exact ⟨[], rfl, (List.append_nil _).symm, .nil, fun _ hg => absurd hg List.not_mem_nil⟩
  | cons first rest ih =>
    obtain ⟨hfirst, hrest⟩ := List.forall_mem_cons.1 hsources
    rw [List.foldlM_cons] at h
    obtain ⟨r₁, v, hone, h⟩ := Effect.bind_ok h
    have hprocessed := processOne_ok hone
    obtain ⟨g, hsource, hsaid, htold, hnone, hkept⟩ := hprocessed.group hdir hfirst
    obtain ⟨groups, hpaths, hmore, honce, hlater⟩ := ih hrest h
    have hhandled := hprocessed.handled hdir hfirst
    obtain ⟨names, hnames, -⟩ := hprocessed.deletions hdir
    have hthinned : Thinned t v := hnames.thinned
    refine ⟨g :: groups, ?_, ?_, .cons ?_ (honce.before hthinned hdir),
      List.forall_mem_cons.2 ⟨⟨htold, ?_⟩, ?_⟩⟩
    · rw [List.map_cons, List.map_cons, hsource, hpaths]
    · rw [hmore, hsaid, List.flatMap_cons, List.append_assoc]
    · -- the listing of a source that comes again has been consumed, or it is still the same
      intro later hmem hsame
      rw [← hsource, hsame] at hhandled hkept
      obtain ⟨htold', hnone'⟩ := hlater later hmem
      rcases hhandled with hfile | hlisting
      · exact .inl (hnone' hfile)
      · refine htold'.imp_right fun hlines => ⟨hlisting.before hthinned hdir, ?_⟩
        exact hlines.trans (hkept hlisting).symm
    · rw [hsource]
      exact hnone
    · intro later hmem
      obtain ⟨htold', hnone'⟩ := hlater later hmem
      exact ⟨htold'.thinned hthinned, fun hfile => hnone' (hthinned.isFile_false hfile)⟩

/-- A survey of sources that have something to run reports their lines source by source. -/
theorem run_grouped (hdir : dir.toString ≠ "") (hsources : ∀ s ∈ sources, IsSurveyed s)
    (h : run workingDir dir sources t = .ok r u) :
    Grouped t workingDir dir (sources.map (·.path)) r.diagnostics := by
  obtain ⟨report, v, removed, hprocess, -, rfl⟩ := run_cases h
  obtain ⟨groups, hpaths, hdiagnostics, honce, htold⟩ := foldlM_grouped hdir hsources hprocess
  exact ⟨groups, hpaths, hdiagnostics.symm, honce, fun g hg => (htold g hg).1⟩

end TriplePass.Coverage
