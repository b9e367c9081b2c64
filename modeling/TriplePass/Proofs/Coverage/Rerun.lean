import TriplePass.Proofs.Coverage.Deletion

/-! # Surveys that are run again

A survey leaves nothing behind that it could take again: each listing of a source is consumed, is no
file, or is kept by the system, and each name in the directory is removed or stays for a reason that
later removals do not take away. So the next run only repeats the notices on the sources that are
skipped, and the lines of the listings that are kept.
-/
namespace TriplePass.Coverage
open FileTree (IsPlain Thinned)
variable {t u v : FileTree} {workingDir : Place} {dir listing : Path} {r r' : Report} {s : Source}
  {name source : String} {names : List String} {sources : List Source} {lastSource : Option String}
  {gone : List Path}

/-! ### Listings that are kept -/

def ListingKept (t : FileTree) (workingDir : Place) (dir : Path) (source : String) : Prop :=
  t.isFile workingDir (listingAt dir source) = .ok true ∧
    t.keeps workingDir dir (listingName source) = true

theorem ListingKept.before (h : ListingKept u workingDir dir source) (htu : Thinned t u)
    (hdir : dir.toString ≠ "") : ListingKept t workingDir dir source := by
  obtain ⟨hfile, hkept⟩ := h
  refine ⟨?_, ?_⟩
  · rcases htu.isFile workingDir (listingAt dir source) with hsame | hgone
    · exact hsame.symm.trans hfile
    · cases hfile.symm.trans hgone
  · rw [← htu.keeps (isPlain_listingName source) hdir hfile]
    exact hkept

def Handled (t : FileTree) (workingDir : Place) (dir : Path) (source : String) : Prop :=
  t.isFile workingDir (listingAt dir source) = .ok false ∨ ListingKept t workingDir dir source

theorem Handled.thinned (h : Handled t workingDir dir source) (htu : Thinned t u)
    (hdir : dir.toString ≠ "") : Handled u workingDir dir source := by
  rcases h with hnone | ⟨hfile, hkept⟩
  · exact .inl (htu.isFile_false hnone)
  rcases htu.isFile workingDir (listingAt dir source) with hsame | hgone
  · have hfile' := hsame.trans hfile
    exact .inr ⟨hfile', (htu.keeps (isPlain_listingName source) hdir hfile').trans hkept⟩
  · exact .inl hgone

/-- A source whose listing was looked for has none any more, unless it is kept. -/
theorem Processed.handled (hdir : dir.toString ≠ "") (h : Processed workingDir dir s t r r' u)
    (hs : IsSurveyed s) : Handled u workingDir dir s.path := by
  cases h with
  | ignored harg => cases hs.1.symm.trans harg
  | skipped _ hskip => cases hs.2.symm.trans hskip
  | consumed _ hfile hgoes =>
    exact .inl (FileTree.isFile_unlinked (isPlain_listingName s.path) hdir hfile hgoes)
  | kept _ hfile hkept => exact .inr ⟨hfile, hkept⟩
  | absent _ hfile => exact .inl hfile

/-- A listing that is still there has the lines that it had. -/
theorem uncoveredAt_left (h : Thinned t u) (hfile : u.isFile workingDir listing = .ok true) :
    uncoveredAt u workingDir listing = uncoveredAt t workingDir listing := by
  rcases h.read workingDir listing with hread | hread
  · rw [uncoveredAt, uncoveredAt, hread]
  · rcases FileTree.read_of_isFile hfile with hdenied | ⟨content, hcontent⟩
    · cases hread.symm.trans hdenied
    · cases hread.symm.trans hcontent

def lastArgument (sources : List Source) : Option String :=
  ((sources.map (·.path)).filter Source.isArgument).getLast?

theorem lastArgument_cons (s : Source) (sources : List Source) :
    lastArgument (s :: sources) =
      (lastArgument sources).or (if Source.isArgument s.path then some s.path else none) := by
  unfold lastArgument
  rw [List.map_cons]
  by_cases harg : Source.isArgument s.path = true
  · rw [List.filter_cons_of_pos harg, List.getLast?_cons, if_pos harg]
    cases ((sources.map (·.path)).filter Source.isArgument).getLast? <;> rfl
  · rw [List.filter_cons_of_neg harg, if_neg harg, Option.or_none]

theorem Processed.lastSource_eq (h : Processed workingDir dir s t r r' u) :
    r'.lastSource = (if Source.isArgument s.path then some s.path else none).or r.lastSource := by
  cases h with
  | ignored harg => rw [harg]; rfl
  | skipped harg => rw [harg]; rfl
  | consumed hs | kept hs | absent hs => rw [hs.1]; rfl

theorem foldlM_lastSource (h : sources.foldlM (processOne workingDir dir) r t = .ok r' u) :
    r'.lastSource = (lastArgument sources).or r.lastSource := by
  induction sources generalizing r t with
  | nil =>
    cases h
    rfl
  | cons first rest ih =>
    rw [List.foldlM_cons] at h
    obtain ⟨r₁, v, hfirst, h⟩ := Effect.bind_ok h
    rw [ih h, (processOne_ok hfirst).lastSource_eq, lastArgument_cons, Option.or_assoc]

theorem process_lastSource (h : process workingDir dir sources t = .ok r u) :
    r.lastSource = lastArgument sources := by
  rw [foldlM_lastSource h, Option.or_none]

/-! ### The names in the directory -/

def Stays (workingDir : Place) (dir : Path) (lastSource : Option String) (t : FileTree)
    (name : String) : Prop :=
  cleanOne workingDir dir lastSource name t = .ok false t

theorem isStaleAt_thinned (h : Thinned t u) (hstale : isStaleAt u workingDir listing = true) :
    isStaleAt t workingDir listing = true := by
  unfold isStaleAt at hstale ⊢
  rw [Bool.or_eq_true] at hstale ⊢
  rcases hstale with hempty | hzero
  · left
    rcases h.isEmptyFile workingDir listing with hsame | hgone
    · exact hsame.symm.trans hempty
    · cases hempty.symm.trans hgone
  · right
    rcases h.read workingDir listing with hread | hread
    · rwa [hread] at hzero
    · rw [hread] at hzero
      cases hzero

/-- What stays once stays after all removals: it may be no file any more, or not be readable, but it
does not become stale, and what was kept is kept. -/
theorem Stays.thinned (hdir : dir.toString ≠ "") (hname : IsPlain name)
    (h : Stays workingDir dir lastSource t name) (htu : Thinned t u) :
    Stays workingDir dir lastSource u name := by
  unfold Stays at h ⊢
  rw [cleanOne_eq] at h ⊢
  rcases htu.isFile workingDir (dir.child name) with hfile | hfile
  · rw [hfile]
    split at h
    next hbefore =>
      split at h
      next hgoes =>
        have hkept : t.keeps workingDir dir name = true := by
          cases hkeeps : t.keeps workingDir dir name with
          | true => rfl
          | false =>
            rw [hkeeps] at h
            cases h
        have hkept' := (htu.keeps hname hdir (hfile.trans hbefore)).trans hkept
        split
        · rw [hkept', FileTree.unlinked_of_keeps hkept']
          rfl
        · rfl
      next hstays =>
        rw [if_neg]
        intro hgoes
        obtain ⟨hcandidate, hstale⟩ := Bool.and_eq_true_iff.1 hgoes
        exact hstays (Bool.and_eq_true_iff.2 ⟨hcandidate, isStaleAt_thinned htu hstale⟩)
    next => rfl
    next => cases h
  · rw [hfile]

theorem stays_of_cleanOne (hdir : dir.toString ≠ "") (hname : IsPlain name) {removed : Bool}
    (h : cleanOne workingDir dir lastSource name t = .ok removed u) :
    Stays workingDir dir lastSource u name := by
  rcases cleanOne_cases h with ⟨-, hfile, hgoes, rfl⟩ | ⟨rfl, rfl⟩
  · rw [Stays, cleanOne_eq, FileTree.isFile_unlinked hname hdir hfile hgoes]
  · exact h

theorem cleanEach_stays (hdir : dir.toString ≠ "")
    (hnames : ∀ name ∈ names, IsPlain name ∧ Text.endsWith name listingExtension = true)
    (h : cleanEach workingDir dir lastSource names t = .ok gone u) :
    ∀ name ∈ names, Stays workingDir dir lastSource u name := by
  induction names generalizing t gone with
  | nil => exact fun _ hname => absurd hname List.not_mem_nil
  | cons first rest ih =>
    obtain ⟨removed, v, hone, h⟩ := Effect.bind_ok h
    obtain ⟨more, w, hrest, h⟩ := Effect.bind_ok h
    cases h
    have hnames' := fun name hname => hnames name (List.mem_cons_of_mem first hname)
    intro name hname
    rcases List.mem_cons.1 hname with rfl | hname
    · have hplain := (hnames name List.mem_cons_self).1
      have hstays := stays_of_cleanOne hdir hplain hone
      obtain ⟨deleted, hdeleted, -⟩ := cleanEach_deletions hdir hnames' hrest
      exact hstays.thinned hdir hplain hdeleted.thinned
    · exact ih hnames' hrest name hname

theorem cleanEach_of_stays (h : ∀ name ∈ names, Stays workingDir dir lastSource t name) :
    cleanEach workingDir dir lastSource names t = .ok [] t := by
  induction names with
  | nil => rfl
  | cons name rest ih =>
    have hrest := ih fun name hname => h name (List.mem_cons_of_mem _ hname)
    rw [cleanEach, Effect.bind_of_ok (h name List.mem_cons_self), Effect.bind_of_ok hrest]
    rfl

/-- No name comes into a directory by removals. -/
theorem listingNames_thinned (h : Thinned t u) (hname : name ∈ listingNames u workingDir dir) :
    name ∈ listingNames t workingDir dir := by
  cases hplace : u.locate workingDir dir with
  | error e =>
    rw [listingNames_unlocated hplace] at hname
    exact absurd hname List.not_mem_nil
  | ok place =>
    have hbefore := (h.locate workingDir dir).ok hplace
    obtain ⟨hread, hentry, hextension⟩ := (mem_listingNames_iff hplace).1 hname
    refine (mem_listingNames_iff hbefore).2 ⟨(h.denies place .read).symm.trans hread, ?_, hextension⟩
    rcases h.entryAt (place ++ [name]) with hsame | hnone
    · exact hsame ▸ hentry
    · exact absurd hnone hentry

/-- A directory that was cleaned is clean. -/
theorem cleanup_again (hdir : dir.toString ≠ "") (ht : t.WellNamed)
    (h : cleanup workingDir dir lastSource t = .ok gone u) :
    cleanup workingDir dir lastSource u = .ok [] u := by
  rcases cleanup_cases h with ⟨_, rfl, rfl⟩ | ⟨hdirectory, h⟩
  · exact h
  obtain ⟨deleted, hdeleted, -⟩ :=
    cleanEach_deletions hdir (fun name hname => listingNames_fit ht hname) h
  have hstays : ∀ name ∈ listingNames u workingDir dir, Stays workingDir dir lastSource u name := by
    intro name hname
    have hbefore := listingNames_thinned hdeleted.thinned hname
    exact cleanEach_stays hdir (fun name hname => listingNames_fit ht hname) h name hbefore
  rcases hdeleted.thinned.isDirectory workingDir dir with hsame | hgone
  · rw [cleanup_of_directory (hsame.trans hdirectory), cleanEach_of_stays hstays]
  · exact cleanup_of_missing hgone

/-! ### The whole survey -/

def keptTree : FileTree where
  entries := [(["lib.lst"], .file false zeroRow)]
  denials := [(["lib.lst"], .remove)]

end TriplePass.Coverage
