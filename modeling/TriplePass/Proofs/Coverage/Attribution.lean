import Mathlib.Data.List.Induction
import TriplePass.Proofs.Coverage.Grouping
import TriplePass.Proofs.FileTree.LinkFree

/-! # Which source a listing is attributed to

Sources that share the name of a listing compete for it, and the first one that is surveyed gets it;
a listing that the system keeps is there for all of them. In a directory without links that alone
decides the report: what is said of a source depends on the files as they were before the survey,
and on the sources in front of it.
-/
namespace TriplePass.Coverage
open FileTree (IsPlain LinkFree Thinned)
variable {t u v w : FileTree} {workingDir : Place} {dir : Path} {r r' : Report} {s : Source}
  {sources earlier : List Source}

/-! ### What the sources determine -/

def withEarlier (earlier : List Source) : List Source → List (List Source × Source)
  | [] => []
  | s :: rest => (earlier, s) :: withEarlier (earlier ++ [s]) rest

theorem withEarlier_concat (earlier sources : List Source) (s : Source) :
    withEarlier earlier (sources ++ [s]) =
      withEarlier earlier sources ++ [(earlier ++ sources, s)] := by
  induction sources generalizing earlier with
  | nil => simp [withEarlier]
  | cons first rest ih => simp [withEarlier, ih]

instance (s : Source) : Decidable (IsSurveyed s) :=
  inferInstanceAs (Decidable (_ ∧ _))

/-- No source in front that is surveyed has a listing of that name, or the listing is kept. -/
def IsFree (t : FileTree) (workingDir : Place) (dir : Path) (earlier : List Source)
    (name : String) : Prop :=
  (∀ e ∈ earlier, IsSurveyed e → listingName e.path ≠ name) ∨ t.keeps workingDir dir name = true

instance (t : FileTree) (workingDir : Place) (dir : Path) (earlier : List Source) (name : String) :
    Decidable (IsFree t workingDir dir earlier name) :=
  inferInstanceAs (Decidable ((∀ e ∈ earlier, _) ∨ _))

def Claims (t : FileTree) (workingDir : Place) (dir : Path) (earlier : List Source)
    (s : Source) : Prop :=
  IsSurveyed s ∧ t.isFile workingDir (listingAt dir s.path) = .ok true ∧
    IsFree t workingDir dir earlier (listingName s.path)

instance (t : FileTree) (workingDir : Place) (dir : Path) (earlier : List Source) (s : Source) :
    Decidable (Claims t workingDir dir earlier s) :=
  inferInstanceAs (Decidable (_ ∧ _ ∧ _))

def said (t : FileTree) (workingDir : Place) (dir : Path) (earlier : List Source) (s : Source) :
    List Diagnostic :=
  if Source.isArgument s.path = false then []
  else if s.skipsRun then [skipNotice s]
  else if Claims t workingDir dir earlier s then
    (uncoveredAt t workingDir (listingAt dir s.path)).map (uncoveredWarning s.path)
  else []

def Takes (t : FileTree) (workingDir : Place) (dir : Path) (earlier : List Source)
    (s : Source) : Prop :=
  Claims t workingDir dir earlier s ∧ t.keeps workingDir dir (listingName s.path) = false

instance (t : FileTree) (workingDir : Place) (dir : Path) (earlier : List Source) (s : Source) :
    Decidable (Takes t workingDir dir earlier s) :=
  inferInstanceAs (Decidable (_ ∧ _))

def takers (t : FileTree) (workingDir : Place) (dir : Path) (sources : List Source) :
    List String :=
  ((withEarlier [] sources).filter fun e => Takes t workingDir dir e.1 e.2).map (·.2.path)

/-- A report as the sources and the files before the survey determine it, and what is left of the
files. -/
structure Attributed (t : FileTree) (workingDir : Place) (dir : Path) (sources : List Source)
    (r : Report) (u : FileTree) : Prop where
  diagnostics : r.diagnostics =
    (withEarlier [] sources).flatMap fun e => said t workingDir dir e.1 e.2
  consumed : r.consumed = (takers t workingDir dir sources).map (listingAt dir)
  removed : r.removed = []
  lastSource : r.lastSource = lastArgument sources
  tidied : Tidied workingDir dir t ((takers t workingDir dir sources).map listingName) u
  /-- No files go at a source that is not surveyed. -/
  spared : ∀ before s after, sources = before ++ s :: after → ¬IsSurveyed s →
    ∃ report report' v, process workingDir dir before t = .ok report v ∧
      process workingDir dir (before ++ [s]) t = .ok report' v

/-! ### The files on the way -/

/-- What the sources so far have left: their listings are gone unless they are kept, and under free
names there is what there was. -/
structure Left (t : FileTree) (workingDir : Place) (dir : Path) (earlier : List Source)
    (v : FileTree) : Prop where
  thinned : Thinned t v
  handled : ∀ e ∈ earlier, IsSurveyed e → Handled v workingDir dir e.path
  free : ∀ name, IsPlain name → IsFree t workingDir dir earlier name →
    v.isFile workingDir (dir.child name) = t.isFile workingDir (dir.child name) ∧
      uncoveredAt v workingDir (dir.child name) = uncoveredAt t workingDir (dir.child name)

theorem uncoveredAt_unlinked {name other : String} (h : t.LinkFree workingDir dir)
    (hname : IsPlain name) (hother : IsPlain other) (hdir : dir.toString ≠ "")
    (hne : other ≠ name) (hfile : t.isFile workingDir (dir.child name) = .ok true) :
    uncoveredAt (t.unlinked workingDir dir name) workingDir (dir.child other) =
      uncoveredAt t workingDir (dir.child other) := by
  rcases h.read_unlinked hname hother hdir hne hfile with hsame | hbehind
  · simp only [uncoveredAt, hsame]
  · have hnone : uncoveredAt t workingDir (dir.child other) = [] := by
      rw [uncoveredAt, hbehind]
    rcases uncoveredAt_thinned (Thinned.unlinked t workingDir dir name) workingDir
      (dir.child other) with hsame | hgone
    · exact hsame
    · rw [hgone, hnone]

namespace Left

theorem start (t : FileTree) (workingDir : Place) (dir : Path) : Left t workingDir dir [] t where
  thinned := .refl t
  handled := fun _ he => absurd he List.not_mem_nil
  free := fun _ _ _ => ⟨rfl, rfl⟩

theorem step (h : Left t workingDir dir earlier v) (hlinks : t.LinkFree workingDir dir)
    (hdir : dir.toString ≠ "") (hs : Processed workingDir dir s v r r' w) :
    Left t workingDir dir (earlier ++ [s]) w := by
  obtain ⟨names, hnames, -⟩ := hs.deletions hdir
  refine ⟨?_, ?_, ?_⟩
  · exact h.thinned.trans hnames.thinned
  · intro e he hsurveyed
    rcases List.mem_append.1 he with he | he
    · exact (h.handled e he hsurveyed).thinned hnames.thinned hdir
    · cases List.mem_singleton.1 he
      exact hs.handled hdir hsurveyed
  · intro name hname hfree
    obtain ⟨hfile, hlines⟩ := h.free name hname
      (hfree.imp_left fun hnone e he => hnone e (List.mem_append_left _ he))
    cases hs with
    | ignored | skipped | kept | absent => exact ⟨hfile, hlines⟩
    | consumed hsurveyed hlisted hgoes =>
      have hplain := isPlain_listingName s.path
      have hne : name ≠ listingName s.path := by
        rintro rfl
        rcases hfree with hnone | hkept
        · exact hnone s (by simp) hsurveyed rfl
        · rw [← h.thinned.keeps hplain hdir hlisted, hgoes] at hkept
          cases hkept
      have hlinks' := hlinks.thinned h.thinned
      exact ⟨(hlinks'.isFile_unlinked hplain hname hdir hne hlisted).trans hfile,
        (uncoveredAt_unlinked hlinks' hplain hname hdir hne hlisted).trans hlines⟩

/-- A listing that is met on the way is there for the source that claims it. -/
theorem claims_iff (h : Left t workingDir dir earlier v) (hdir : dir.toString ≠ "")
    (hs : IsSurveyed s) :
    Claims t workingDir dir earlier s ↔
      v.isFile workingDir (listingAt dir s.path) = .ok true := by
  constructor
  · rintro ⟨-, hfile, hfree⟩
    exact (h.free _ (isPlain_listingName s.path) hfree).1.trans hfile
  · intro hfile
    have hfree : IsFree t workingDir dir earlier (listingName s.path) := by
      by_cases hkept : t.keeps workingDir dir (listingName s.path) = true
      · exact .inr hkept
      refine .inl fun e he hsurveyed hsame => ?_
      rcases h.handled e he hsurveyed with hgone | hlisted
      · rw [listingAt, hsame] at hgone
        cases hgone.symm.trans hfile
      · exact hkept (hsame ▸ (hlisted.before h.thinned hdir).2)
    exact ⟨hs, (h.free _ (isPlain_listingName s.path) hfree).1.symm.trans hfile, hfree⟩

end Left

/-! ### One source after the other -/

structure Adds (t : FileTree) (workingDir : Place) (dir : Path) (earlier : List Source)
    (s : Source) (r r' : Report) : Prop where
  diagnostics : r'.diagnostics = r.diagnostics ++ said t workingDir dir earlier s
  consumed : r'.consumed = r.consumed ++
    if Takes t workingDir dir earlier s then [listingAt dir s.path] else []

theorem Processed.adds (hdir : dir.toString ≠ "") (hs : Processed workingDir dir s v r r' w)
    (h : Left t workingDir dir earlier v) : Adds t workingDir dir earlier s r r' := by
  have hidle : ¬Claims t workingDir dir earlier s → ¬Takes t workingDir dir earlier s :=
    mt And.left
  -- where the listing is found, the source claims it, and its lines are those before the survey
  have hfound : IsSurveyed s → v.isFile workingDir (listingAt dir s.path) = .ok true →
      said t workingDir dir earlier s =
          (uncoveredAt v workingDir (listingAt dir s.path)).map (uncoveredWarning s.path) ∧
        (Takes t workingDir dir earlier s ↔
          v.keeps workingDir dir (listingName s.path) = false) := by
    intro hsurveyed hfile
    have hplain := isPlain_listingName s.path
    have hclaims := (h.claims_iff hdir hsurveyed).2 hfile
    have hlines := (h.free _ hplain hclaims.2.2).2
    refine ⟨by simp [said, hsurveyed.1, hsurveyed.2, hclaims, listingAt, hlines], ?_⟩
    rw [Takes, h.thinned.keeps hplain hdir hfile]
    exact and_iff_right hclaims
  cases hs with
  | ignored harg =>
    have hclaims : ¬Claims t workingDir dir earlier s := fun hc => by cases harg.symm.trans hc.1.1
    exact ⟨by simp [said, harg], by simp [hidle hclaims]⟩
  | skipped harg hskip =>
    have hclaims : ¬Claims t workingDir dir earlier s := fun hc => by cases hskip.symm.trans hc.1.2
    exact ⟨by simp [said, harg, hskip], by simp [hidle hclaims]⟩
  | consumed hsurveyed hfile hgoes =>
    obtain ⟨hsaid, htakes⟩ := hfound hsurveyed hfile
    exact ⟨by rw [hsaid]; rfl, by rw [if_pos (htakes.2 hgoes)]; rfl⟩
  | kept hsurveyed hfile hkept =>
    obtain ⟨hsaid, htakes⟩ := hfound hsurveyed hfile
    have hstays : ¬Takes t workingDir dir earlier s := by
      rw [htakes, hkept]
      simp
    exact ⟨by rw [hsaid]; rfl, by rw [if_neg hstays, List.append_nil]; rfl⟩
  | absent hsurveyed hfile =>
    have hclaims : ¬Claims t workingDir dir earlier s := by
      rw [h.claims_iff hdir hsurveyed, hfile]
      simp
    exact ⟨by simp [said, hsurveyed.1, hsurveyed.2, hclaims], by simp [hidle hclaims]⟩

theorem process_concat (h : process workingDir dir (sources ++ [s]) t = .ok r u) :
    ∃ report v, process workingDir dir sources t = .ok report v ∧
      Processed workingDir dir s v report r u := by
  rw [process, List.foldlM_append] at h
  obtain ⟨report, v, hbefore, h⟩ := Effect.bind_ok h
  rw [List.foldlM_cons] at h
  obtain ⟨report', w, hone, h⟩ := Effect.bind_ok h
  cases h
  exact ⟨report, v, hbefore, processOne_ok hone⟩

theorem process_before {before after : List Source}
    (h : process workingDir dir (before ++ after) t = .ok r u) :
    ∃ report v, process workingDir dir before t = .ok report v := by
  rw [process, List.foldlM_append] at h
  obtain ⟨report, v, hbefore, -⟩ := Effect.bind_ok h
  exact ⟨report, v, hbefore⟩

-- The induction goes from the back: a source is judged by the files that those before it have left.
theorem process_left (hlinks : t.LinkFree workingDir dir) (hdir : dir.toString ≠ "")
    (h : process workingDir dir sources t = .ok r u) : Left t workingDir dir sources u := by
  induction sources using List.reverseRecOn generalizing r u with
  | nil =>
    cases h
    exact .start t workingDir dir
  | append_singleton before s ih =>
    obtain ⟨report, v, hbefore, hs⟩ := process_concat h
    exact (ih hbefore).step hlinks hdir hs

theorem process_determined (hlinks : t.LinkFree workingDir dir) (hdir : dir.toString ≠ "")
    (h : process workingDir dir sources t = .ok r u) :
    r.diagnostics = ((withEarlier [] sources).flatMap fun e => said t workingDir dir e.1 e.2) ∧
      r.consumed = (takers t workingDir dir sources).map (listingAt dir) := by
  induction sources using List.reverseRecOn generalizing r u with
  | nil =>
    cases h
    exact ⟨rfl, rfl⟩
  | append_singleton before s ih =>
    obtain ⟨report, v, hbefore, hs⟩ := process_concat h
    obtain ⟨hdiagnostics, hconsumed⟩ := ih hbefore
    have hadds := hs.adds hdir (process_left hlinks hdir hbefore)
    refine ⟨?_, ?_⟩
    · rw [hadds.diagnostics, hdiagnostics, withEarlier_concat]
      simp
    · rw [hadds.consumed, hconsumed, takers, takers, withEarlier_concat]
      by_cases htakes : Takes t workingDir dir before s <;> simp [htakes]

/-- In a directory without links a survey that returns reports what the sources and the listings
before it determine, and takes just these listings away, as far as the system lets them go. -/
theorem process_attributed (workingDir : Place) (dir : String)
    (hlinks : t.LinkFree workingDir (Path.ofString dir))
    (h : process workingDir (Path.ofString dir) sources t = .ok r u) :
    Attributed t workingDir (Path.ofString dir) sources r u := by
  have hdir := Path.toString_ofString_ne_empty dir
  obtain ⟨hdiagnostics, hconsumed⟩ := process_determined hlinks hdir h
  obtain ⟨names, hnames, hdeleted, hremoved⟩ := process_deletions hdir h
  have hnamed : names = (takers t workingDir (Path.ofString dir) sources).map listingName := by
    refine (child_injective (Path.ofString dir)).list_map ?_
    rw [← hdeleted, hconsumed, List.map_map]
    rfl
  refine ⟨hdiagnostics, hconsumed, hremoved, process_lastSource h, hnamed ▸ hnames.tidied, ?_⟩
  rintro before s after rfl hs
  rw [List.append_cons] at h
  obtain ⟨report', v', hstep⟩ := process_before h
  obtain ⟨report, v, hbefore, hprocessed⟩ := process_concat hstep
  cases hprocessed with
  | ignored | skipped => exact ⟨_, _, _, hbefore, hstep⟩
  | consumed hsurveyed | kept hsurveyed | absent hsurveyed => exact absurd hsurveyed hs

def loneListing : FileTree where
  entries := [(["lib.lst"], .file false zeroRow)]

/-- Two spellings of one source, and one that is skipped. -/
def sharingSources : List Source :=
  [{ path := "lib.d", hasTests := true }, { path := "main.d", isEntryPoint := true },
    { path := "./lib.d", hasTests := true }]

def sharingReport : Report where
  diagnostics := [uncoveredWarning "lib.d" 1, skipNotice { path := "main.d", isEntryPoint := true }]
  consumed := [Path.ofString "lib.lst"]
  lastSource := some "./lib.d"

theorem linkFree_loneListing (workingDir : Place) (dir : Path) :
    loneListing.LinkFree workingDir dir := by
  refine .of_entries fun entry hentry target => ?_
  cases List.mem_singleton.1 hentry
  exact Entry.noConfusion

theorem linkFree_keptTree (workingDir : Place) (dir : Path) :
    keptTree.LinkFree workingDir dir := by
  refine .of_entries fun entry hentry target => ?_
  cases List.mem_singleton.1 hentry
  exact Entry.noConfusion

/-- The listing goes to the spelling that comes first. -/
theorem process_attributed_shared :
    loneListing.LinkFree [] (Path.ofString ".") ∧
      process [] (Path.ofString ".") sharingSources loneListing = .ok sharingReport {} ∧
      Attributed loneListing [] (Path.ofString ".") sharingSources sharingReport {} := by
  have hlinks := linkFree_loneListing [] (Path.ofString ".")
  exact ⟨hlinks, rfl, process_attributed [] "." hlinks rfl⟩

/-- An argument that is no source has tests and the same name of a listing, but does not get it; and
a listing that cannot be removed is there for two spellings, and is consumed by neither. -/
theorem process_namesake :
    (loneListing.LinkFree [] (Path.ofString ".") ∧
      (⟨"lib", false, true⟩ : Source).skipsRun = false ∧
      listingName "lib" = listingName "lib.d" ∧
      process [] (Path.ofString ".") [⟨"lib", false, true⟩, ⟨"lib.d", false, true⟩] loneListing =
        .ok
          { diagnostics := [uncoveredWarning "lib.d" 1]
            consumed := [Path.ofString "lib.lst"]
            lastSource := some "lib.d" } {}) ∧
    keptTree.LinkFree [] (Path.ofString ".") ∧
      process [] (Path.ofString ".") sharingSources keptTree =
        .ok
          { diagnostics := [uncoveredWarning "lib.d" 1,
              skipNotice { path := "main.d", isEntryPoint := true }, uncoveredWarning "./lib.d" 1]
            consumed := []
            lastSource := some "./lib.d" } keptTree :=
  ⟨⟨linkFree_loneListing [] _, rfl, rfl, rfl⟩, linkFree_keptTree [] _, rfl⟩

end TriplePass.Coverage
