import TriplePass.Coverage.Survey
import TriplePass.Proofs.Effect
import TriplePass.Proofs.FileTree
import TriplePass.Proofs.Text.Utf8

/-! # Surveys that are broken off

A survey is broken off only where the system does not say whether something is there: at a name that
is too long, or behind a directory that must not be searched. Every listing that was consumed until
then is gone, and so is the report with its lines: the files are as they were exactly if there was
none yet. A listing that the system keeps does not break a survey off, it just stays.
-/
namespace TriplePass.Coverage
open FileTree (IsPlain)
variable {t u : FileTree} {workingDir : Place} {dir : Path} {r r' : Report} {s : Source}
  {e : Errno}

/-! ### Looking for a listing -/

theorem isFile_eq (workingDir : Place) (listing : Path) (t : FileTree) :
    Survey.isFile workingDir listing t =
      match t.isFile workingDir listing with
      | .ok answer => .ok answer t
      | .error e => .error e t := rfl

def listingAt (dir : Path) (source : String) : Path :=
  dir.child (listingName source)

theorem toList_listingName (source : String) :
    (listingName source).toList =
      flattened (withoutSuffix (withoutDotSlash source.toList)) ++ ['.', 'l', 's', 't'] := by
  rw [listingName, String.toList_append, String.toList_ofList]
  rfl

theorem isPlain_listingName (source : String) : IsPlain (listingName source) := by
  have hchars := toList_listingName source
  have hlength : 4 ≤ (listingName source).toList.length := by
    rw [hchars, List.length_append]
    exact Nat.le_add_left _ _
  have hlong : ∀ short : String, short.toList.length < 4 → listingName source ≠ short := by
    intro short hshort heq
    rw [heq] at hlength
    omega
  refine ⟨?_, hlong "" (by decide), hlong "." (by decide), hlong ".." (by decide)⟩
  rw [hchars]
  intro hmem
  rcases List.mem_append.1 hmem with hmem | hmem
  · obtain ⟨c, _, hc⟩ := List.mem_map.1 hmem
    split at hc
    · cases hc
    · next hne => exact hne hc
  · exact absurd hmem (by decide)

def Report.tell (r : Report) (t : FileTree) (workingDir : Place) (dir : Path)
    (source : String) : Report :=
  { r with
    diagnostics := r.diagnostics ++
      (uncoveredAt t workingDir (listingAt dir source)).map (uncoveredWarning source) }

def Report.consume (r : Report) (listing : Path) : Report :=
  { r with consumed := r.consumed ++ [listing] }

theorem remove_eq (workingDir : Place) (dir : Path) (name : String) (t : FileTree) :
    Survey.remove workingDir dir name t =
      .ok (!t.keeps workingDir dir name) (t.unlinked workingDir dir name) := by
  unfold Survey.remove FileTree.keeps FileTree.unlinked
  cases t.unlink workingDir dir name with
  | ok u => rfl
  | error e => cases e <;> rfl

theorem consume_eq (workingDir : Place) (dir : Path) (source : String) (r : Report)
    (t : FileTree) :
    consume workingDir dir source r t =
      match t.isFile workingDir (listingAt dir source) with
      | .ok true =>
        if t.keeps workingDir dir (listingName source) then
          .ok (r.tell t workingDir dir source) t
        else
          .ok ((r.tell t workingDir dir source).consume (listingAt dir source))
            (t.unlinked workingDir dir (listingName source))
      | .ok false => .ok r t
      | .error e => .error e t := by
  unfold consume listingAt
  have hask := isFile_eq workingDir (dir.child (listingName source)) t
  cases hfile : t.isFile workingDir (dir.child (listingName source)) with
  | error e =>
    rw [hfile] at hask
    exact Effect.bind_of_error hask _
  | ok isFile =>
    rw [hfile] at hask
    rw [Effect.bind_of_ok hask]
    cases isFile with
    | false => rfl
    | true =>
      have hremove := remove_eq workingDir dir (listingName source) t
      simp only [if_true]
      rw [Effect.get_bind, Effect.bind_of_ok hremove]
      by_cases hkept : t.keeps workingDir dir (listingName source) = true
      · rw [if_pos hkept, FileTree.unlinked_of_keeps hkept, hkept]
        rfl
      · rw [if_neg hkept, Bool.eq_false_iff.2 hkept]
        rfl

/-! ### What removing listings costs -/

structure Spent (before after : FileTree) (listings : List Path) : Prop where
  unchanged : listings = [] → after = before
  smaller : listings ≠ [] → after.entries.length < before.entries.length

namespace Spent
variable {v : FileTree} {listings more : List Path}

theorem nothing (t : FileTree) : Spent t t [] :=
  ⟨fun _ => rfl, fun h => absurd rfl h⟩

theorem one {listing : Path} (h : u.entries.length < t.entries.length) : Spent t u [listing] :=
  ⟨fun hnil => absurd hnil (List.cons_ne_nil _ _), fun _ => h⟩

theorem iff_unchanged (h : Spent t u listings) : u = t ↔ listings = [] := by
  refine ⟨fun heq => ?_, h.unchanged⟩
  by_cases hnil : listings = []
  · exact hnil
  · have hsmaller := h.smaller hnil
    rw [heq] at hsmaller
    exact absurd hsmaller (Nat.lt_irrefl _)

theorem length_le (h : Spent t u listings) : u.entries.length ≤ t.entries.length := by
  by_cases hnil : listings = []
  · have hsame := h.unchanged hnil
    exact Nat.le_of_eq (congrArg (·.entries.length) hsame)
  · exact Nat.le_of_lt (h.smaller hnil)

theorem trans (h : Spent t u listings) (h' : Spent u v more) : Spent t v (listings ++ more) := by
  refine ⟨fun hnil => ?_, fun hcons => ?_⟩
  · obtain ⟨hlistings, hmore⟩ := List.append_eq_nil_iff.1 hnil
    rw [h'.unchanged hmore, h.unchanged hlistings]
  · have hle := h.length_le
    have hle' := h'.length_le
    by_cases hnil : listings = []
    · have := h'.smaller fun hmore => hcons (List.append_eq_nil_iff.2 ⟨hnil, hmore⟩)
      omega
    · have := h.smaller hnil
      omega

end Spent

/-! ### Reporting on the sources -/

def IsSurveyed (s : Source) : Prop :=
  Source.isArgument s.path = true ∧ s.skipsRun = false

inductive Processed (workingDir : Place) (dir : Path) (s : Source) (t : FileTree) (r : Report) :
    Report → FileTree → Prop where
  | ignored : Source.isArgument s.path = false → Processed workingDir dir s t r r t
  | skipped : Source.isArgument s.path = true → s.skipsRun = true →
      Processed workingDir dir s t r
        { r with lastSource := some s.path, diagnostics := r.diagnostics ++ [skipNotice s] } t
  | consumed : IsSurveyed s → t.isFile workingDir (listingAt dir s.path) = .ok true →
      t.keeps workingDir dir (listingName s.path) = false →
      Processed workingDir dir s t r
        (({ r with lastSource := some s.path }.tell t workingDir dir s.path).consume
          (listingAt dir s.path))
        (t.unlinked workingDir dir (listingName s.path))
  | kept : IsSurveyed s → t.isFile workingDir (listingAt dir s.path) = .ok true →
      t.keeps workingDir dir (listingName s.path) = true →
      Processed workingDir dir s t r
        ({ r with lastSource := some s.path }.tell t workingDir dir s.path) t
  | absent : IsSurveyed s → t.isFile workingDir (listingAt dir s.path) = .ok false →
      Processed workingDir dir s t r { r with lastSource := some s.path } t

theorem processOne_ok (h : processOne workingDir dir r s t = .ok r' u) :
    Processed workingDir dir s t r r' u := by
  unfold processOne at h
  split at h
  next harg =>
    cases h
    exact .ignored (by simpa using harg)
  next harg =>
  have harg : Source.isArgument s.path = true := by simpa using harg
  dsimp only at h
  split at h
  next hskip =>
    cases h
    exact .skipped harg hskip
  next hskip =>
  have hsurveyed : IsSurveyed s := ⟨harg, by simpa using hskip⟩
  rw [consume_eq] at h
  split at h
  next hfile =>
    split at h
    next hkept =>
      cases h
      exact .kept hsurveyed hfile hkept
    next hgoes =>
      cases h
      exact .consumed hsurveyed hfile (Bool.eq_false_iff.2 hgoes)
  next hfile =>
    cases h
    exact .absent hsurveyed hfile
  next => cases h

theorem Processed.spent (hdir : dir.toString ≠ "") (h : Processed workingDir dir s t r r' u) :
    ∃ listings, r'.consumed = r.consumed ++ listings ∧ Spent t u listings := by
  cases h with
  | consumed _ hfile hgoes =>
    obtain ⟨place, hplace, -, entry, hentry, -⟩ :=
      FileTree.entry_of_isFile (isPlain_listingName s.path) hdir hfile
    exact ⟨[listingAt dir s.path], rfl,
      .one (FileTree.length_unlinked_lt hplace (hentry ▸ rfl) hgoes)⟩
  | ignored | skipped | kept | absent => exact ⟨[], (List.append_nil _).symm, .nothing t⟩

theorem processOne_error (h : processOne workingDir dir r s t = .error e u) :
    u = t ∧ IsSurveyed s ∧ t.isFile workingDir (listingAt dir s.path) = .error e := by
  unfold processOne at h
  split at h
  · cases h
  next harg =>
  dsimp only at h
  split at h
  · cases h
  next hskip =>
  rw [consume_eq] at h
  have hsurveyed : IsSurveyed s := ⟨by simpa using harg, by simpa using hskip⟩
  cases hfile : t.isFile workingDir (listingAt dir s.path) with
  | error e =>
    rw [hfile] at h
    cases h
    exact ⟨rfl, hsurveyed, rfl⟩
  | ok isFile =>
    rw [hfile] at h
    cases isFile with
    | false => cases h
    | true =>
      dsimp only at h
      split at h <;> cases h

theorem process_ok {sources : List Source} (hdir : dir.toString ≠ "")
    (h : process workingDir dir sources t = .ok r u) : Spent t u r.consumed := by
  refine Effect.foldlM_keeps (P := fun r u => Spent t u r.consumed) ?_ (.nothing t) h
  intro r v s r' w hspent hone
  obtain ⟨listings, hconsumed, hmore⟩ := (processOne_ok hone).spent hdir
  rw [hconsumed]
  exact hspent.trans hmore

def StoppedAt (workingDir : Place) (dir : Path) (sources : List Source) (t u : FileTree)
    (report : Report) (e : Errno) : Prop :=
  ∃ before s after, sources = before ++ s :: after ∧
    process workingDir dir before t = .ok report u ∧ IsSurveyed s ∧
    u.isFile workingDir (listingAt dir s.path) = .error e

theorem process_stopped {sources : List Source}
    (h : process workingDir dir sources t = .error e u) :
    e.Unanswered ∧ ∃ report, StoppedAt workingDir dir sources t u report e := by
  obtain ⟨before, s, after, report, v, rfl, hbefore, hone⟩ := Effect.foldlM_error h
  obtain ⟨rfl, hsurveyed, hfile⟩ := processOne_error hone
  exact ⟨FileTree.isFile_error hfile, report, before, s, after, rfl, hbefore, hsurveyed, hfile⟩

def BrokenOff (workingDir : Place) (dir : Path) (sources : List Source) (t u : FileTree)
    (e : Errno) : Prop :=
  ∃ report, StoppedAt workingDir dir sources t u report e ∧ (u = t ↔ report.consumed = [])

theorem process_error {sources : List Source} (hdir : dir.toString ≠ "")
    (h : process workingDir dir sources t = .error e u) :
    e.Unanswered ∧ BrokenOff workingDir dir sources t u e := by
  obtain ⟨he, report, hstopped⟩ := process_stopped h
  obtain ⟨before, s, after, rfl, hbefore, _⟩ := id hstopped
  exact ⟨he, report, hstopped, (process_ok hdir hbefore).iff_unchanged⟩

inductive IsNotice : Diagnostic → Prop where
  | skipped (s : Source) : IsNotice (skipNotice s)
  | uncovered (source : String) (line : Nat) : IsNotice (uncoveredWarning source line)

theorem Processed.notices (h : Processed workingDir dir s t r r' u)
    (hr : ∀ d ∈ r.diagnostics, IsNotice d) : ∀ d ∈ r'.diagnostics, IsNotice d := by
  cases h with
  | ignored | absent => exact hr
  | skipped =>
    intro d hd
    rcases List.mem_append.1 hd with hd | hd
    · exact hr d hd
    · rw [List.mem_singleton.1 hd]
      exact .skipped s
  | consumed | kept =>
    intro d hd
    rcases List.mem_append.1 hd with hd | hd
    · exact hr d hd
    · obtain ⟨line, _, rfl⟩ := List.mem_map.1 hd
      exact .uncovered s.path line

variable {lastSource : Option String} {name : String} {names : List String} {gone : List Path}

theorem cleanOne_eq (workingDir : Place) (dir : Path) (lastSource : Option String)
    (name : String) (t : FileTree) :
    cleanOne workingDir dir lastSource name t =
      match t.isFile workingDir (dir.child name) with
      | .ok true =>
        if isCandidate lastSource name && isStaleAt t workingDir (dir.child name) then
          .ok (!t.keeps workingDir dir name) (t.unlinked workingDir dir name)
        else .ok false t
      | .ok false => .ok false t
      | .error e => .error e t := by
  unfold cleanOne
  have hask := isFile_eq workingDir (dir.child name) t
  cases hfile : t.isFile workingDir (dir.child name) with
  | error e =>
    rw [hfile] at hask
    exact Effect.bind_of_error hask _
  | ok isFile =>
    rw [hfile] at hask
    rw [Effect.bind_of_ok hask]
    cases isFile with
    | false => rfl
    | true =>
      simp only [if_true]
      rw [Effect.get_bind]
      split
      · exact remove_eq workingDir dir name t
      · rfl

/-- How one name is cleaned up. -/
theorem cleanOne_cases {removed : Bool}
    (h : cleanOne workingDir dir lastSource name t = .ok removed u) :
    (removed = true ∧ t.isFile workingDir (dir.child name) = .ok true ∧
      t.keeps workingDir dir name = false ∧ u = t.unlinked workingDir dir name) ∨
    (removed = false ∧ u = t) := by
  rw [cleanOne_eq] at h
  split at h
  next hfile =>
    split at h
    · cases h
      by_cases hkept : t.keeps workingDir dir name = true
      · exact .inr ⟨by rw [hkept]; rfl, FileTree.unlinked_of_keeps hkept⟩
      · have hgoes := Bool.eq_false_iff.2 hkept
        exact .inl ⟨by rw [hgoes]; rfl, hfile, hgoes, rfl⟩
    · cases h
      exact .inr ⟨rfl, rfl⟩
  next =>
    cases h
    exact .inr ⟨rfl, rfl⟩
  next => cases h

theorem cleanOne_error (h : cleanOne workingDir dir lastSource name t = .error e u) :
    u = t ∧ t.isFile workingDir (dir.child name) = .error e := by
  rw [cleanOne_eq] at h
  split at h
  · split at h <;> cases h
  · cases h
  · next hfile =>
    cases h
    exact ⟨rfl, hfile⟩

theorem cleanEach_length_le (h : cleanEach workingDir dir lastSource names t = .ok gone u) :
    u.entries.length ≤ t.entries.length := by
  induction names generalizing t gone with
  | nil =>
    cases h
    exact Nat.le_refl _
  | cons name rest ih =>
    obtain ⟨removed, v, hone, h⟩ := Effect.bind_ok h
    obtain ⟨more, w, hrest, h⟩ := Effect.bind_ok h
    cases h
    refine Nat.le_trans (ih hrest) ?_
    rcases cleanOne_cases hone with ⟨-, -, -, rfl⟩ | ⟨-, rfl⟩
    · exact FileTree.length_unlinked_le t _ _ _
    · exact Nat.le_refl _

/-- Names that lie in a directory make its files fewer when they go. -/
theorem cleanEach_ok {place : Place} (hplace : t.locate workingDir dir = .ok place)
    (hnames : ∀ name ∈ names, (t.entryAt (place ++ [name])).isSome = true)
    (h : cleanEach workingDir dir lastSource names t = .ok gone u) : Spent t u gone := by
  induction names generalizing gone with
  | nil =>
    cases h
    exact .nothing t
  | cons name rest ih =>
    obtain ⟨removed, v, hone, h⟩ := Effect.bind_ok h
    obtain ⟨more, w, hrest, h⟩ := Effect.bind_ok h
    cases h
    rcases cleanOne_cases hone with ⟨rfl, -, hgoes, rfl⟩ | ⟨rfl, rfl⟩
    · have hless := FileTree.length_unlinked_lt hplace (hnames name List.mem_cons_self) hgoes
      exact ⟨fun hnil => absurd hnil (List.cons_ne_nil _ _),
        fun _ => Nat.lt_of_le_of_lt (cleanEach_length_le hrest) hless⟩
    · exact ih (fun name hname => hnames name (List.mem_cons_of_mem _ hname)) hrest

theorem cleanEach_error (h : cleanEach workingDir dir lastSource names t = .error e u) :
    ∃ before name after gone, names = before ++ name :: after ∧
      cleanEach workingDir dir lastSource before t = .ok gone u ∧
      u.isFile workingDir (dir.child name) = .error e := by
  induction names generalizing t with
  | nil => cases h
  | cons name rest ih =>
    rcases Effect.bind_error h with hone | ⟨removed, v, hone, h⟩
    · obtain ⟨rfl, hfile⟩ := cleanOne_error hone
      exact ⟨[], name, rest, [], rfl, rfl, hfile⟩
    · rcases Effect.bind_error h with hrest | ⟨more, w, _, h⟩
      · obtain ⟨before, name', after, gone, rfl, hbefore, hfile⟩ := ih hrest
        refine ⟨name :: before, name', after, if removed then dir.child name :: gone else gone, rfl,
          ?_, hfile⟩
        rw [cleanEach, Effect.bind_of_ok hone, Effect.bind_of_ok hbefore]
        rfl
      · cases h

theorem listingNames_of_pairwise {place : Place} {listings : List String}
    (hplace : t.locate workingDir dir = .ok place) (hread : t.denies place .read = false)
    (hlistings : (t.children place).filter (Text.endsWith · listingExtension) = listings)
    (hsorted : listings.Pairwise fun a b => decide (a ≤ b) = true) :
    listingNames t workingDir dir = listings := by
  have hlist : t.list workingDir dir = .ok (t.children place) := by
    rw [FileTree.list, hplace]
    exact if_neg (Bool.eq_false_iff.1 hread)
  simp only [listingNames, hlist, hlistings]
  exact List.mergeSort_of_pairwise hsorted

theorem mem_listingNames_iff {place : Place} (hplace : t.locate workingDir dir = .ok place) :
    name ∈ listingNames t workingDir dir ↔ t.denies place .read = false ∧
      t.entryAt (place ++ [name]) ≠ none ∧ Text.endsWith name listingExtension = true := by
  have hlist : t.list workingDir dir =
      if t.denies place .read then .error .denied else .ok (t.children place) := by
    rw [FileTree.list, hplace]
    rfl
  rw [listingNames, hlist]
  cases t.denies place .read with
  | true => simp
  | false => simp [FileTree.mem_children_iff]

theorem listingNames_unlocated (hplace : t.locate workingDir dir = .error e) :
    listingNames t workingDir dir = [] := by
  rw [listingNames, FileTree.list, hplace]
  rfl

theorem listingNames_entry {place : Place} (hplace : t.locate workingDir dir = .ok place)
    (hname : name ∈ listingNames t workingDir dir) :
    (t.entryAt (place ++ [name])).isSome = true :=
  Option.isSome_iff_ne_none.2 ((mem_listingNames_iff hplace).1 hname).2.1

/-- The system does not answer for the directory itself, or for a name in it: stale listings before
that are gone. -/
inductive CleaningBrokenOff (workingDir : Place) (dir : Path) (lastSource : Option String)
    (t : FileTree) (e : Errno) : FileTree → List Path → Prop where
  | directory : t.isDirectory workingDir dir = .error e →
      CleaningBrokenOff workingDir dir lastSource t e t []
  | listing {before after : List String} {name : String} {gone : List Path} {u : FileTree} :
      listingNames t workingDir dir = before ++ name :: after →
      cleanEach workingDir dir lastSource before t = .ok gone u →
      u.isFile workingDir (dir.child name) = .error e →
      CleaningBrokenOff workingDir dir lastSource t e u gone

theorem CleaningBrokenOff.spent (h : CleaningBrokenOff workingDir dir lastSource t e u gone) :
    Spent t u gone := by
  cases h with
  | directory => exact .nothing t
  | listing hnames hclean hfile =>
    cases hplace : t.locate workingDir dir with
    | error e' =>
      rw [listingNames_unlocated hplace] at hnames
      exact absurd hnames (by simp)
    | ok place =>
      refine cleanEach_ok hplace (fun name hname => ?_) hclean
      exact listingNames_entry hplace (hnames ▸ List.mem_append_left _ hname)

theorem cleanup_error (h : cleanup workingDir dir lastSource t = .error e u) :
    e.Unanswered ∧ ∃ gone, CleaningBrokenOff workingDir dir lastSource t e u gone := by
  rcases Effect.bind_error h with hask | ⟨isDirectory, v, hask, h⟩
  · unfold Survey.asking at hask
    cases hdir : t.isDirectory workingDir dir with
    | ok answer =>
      simp only [hdir] at hask
      cases hask
    | error e' =>
      simp only [hdir] at hask
      cases hask
      exact ⟨FileTree.isDirectory_error hdir, [], .directory hdir⟩
  · have hv : v = t := by
      unfold Survey.asking at hask
      split at hask <;> cases hask
      rfl
    subst hv
    cases isDirectory with
    | false => cases h
    | true =>
      simp only [if_true] at h
      rw [Effect.get_bind] at h
      obtain ⟨before, name, after, gone, hnames, hclean, hfile⟩ := cleanEach_error h
      exact ⟨FileTree.isFile_error hfile, gone, .listing hnames hclean hfile⟩

theorem run_error {sources : List Source} (hdir : dir.toString ≠ "")
    (h : run workingDir dir sources t = .error e u) :
    e.Unanswered ∧ (BrokenOff workingDir dir sources t u e ∨
      ∃ report v gone, process workingDir dir sources t = .ok report v ∧
        CleaningBrokenOff workingDir dir report.lastSource v e u gone ∧
        (u = t ↔ report.consumed = [] ∧ gone = [])) := by
  rcases Effect.bind_error h with hprocess | ⟨report, v, hprocess, h⟩
  · obtain ⟨he, hbroken⟩ := process_error hdir hprocess
    exact ⟨he, .inl hbroken⟩
  · rcases Effect.bind_error h with hclean | ⟨removed, w, _, h⟩
    · obtain ⟨he, gone, hbroken⟩ := cleanup_error hclean
      have hspent := (process_ok hdir hprocess).trans hbroken.spent
      exact ⟨he, .inr ⟨report, v, gone, hprocess, hbroken,
        hspent.iff_unchanged.trans List.append_eq_nil_iff⟩⟩
    · cases h

/-- A survey has met a name that the system does not answer for: that of the listing of a source, or
one in the directory that it cleans. -/
inductive Unaskable (workingDir : Place) (dir : Path) (sources : List Source) (t u : FileTree)
    (e : Errno) : Prop where
  | reporting {report : Report} : StoppedAt workingDir dir sources t u report e →
      Unaskable workingDir dir sources t u e
  | cleaning {report : Report} {v : FileTree} {gone : List Path} :
      process workingDir dir sources t = .ok report v →
      CleaningBrokenOff workingDir dir report.lastSource v e u gone →
      Unaskable workingDir dir sources t u e

theorem run_unaskable {sources : List Source} (h : run workingDir dir sources t = .error e u) :
    e.Unanswered ∧ Unaskable workingDir dir sources t u e := by
  rcases Effect.bind_error h with hprocess | ⟨report, v, hprocess, h⟩
  · obtain ⟨he, report, hstopped⟩ := process_stopped hprocess
    exact ⟨he, .reporting hstopped⟩
  · rcases Effect.bind_error h with hclean | ⟨removed, w, _, h⟩
    · obtain ⟨he, gone, hbroken⟩ := cleanup_error hclean
      exact ⟨he, .cleaning hprocess hbroken⟩
    · cases h

/-- A report on the sources, or a whole survey, is broken off only where the system does not say
whether a file or the directory is there. It has left the files alone exactly if no listing had been
consumed or cleaned up until then. -/
theorem broken_off_unchanged_iff (workingDir : Place) (dir : String) (sources : List Source)
    (t : FileTree) :
    (match process workingDir (Path.ofString dir) sources t with
      | .ok _ _ => True
      | .error e u => e.Unanswered ∧ BrokenOff workingDir (Path.ofString dir) sources t u e) ∧
    match run workingDir (Path.ofString dir) sources t with
      | .ok _ _ => True
      | .error e u => e.Unanswered ∧ (BrokenOff workingDir (Path.ofString dir) sources t u e ∨
          ∃ report v gone, process workingDir (Path.ofString dir) sources t = .ok report v ∧
            CleaningBrokenOff workingDir (Path.ofString dir) report.lastSource v e u gone ∧
            (u = t ↔ report.consumed = [] ∧ gone = [])) := by
  have hdir := Path.toString_ofString_ne_empty dir
  constructor
  · split
    · trivial
    next hprocess => exact process_error hdir hprocess
  · split
    · trivial
    next hrun => exact run_error hdir hrun

/-! ### A listing that is lost -/

def longDir : String :=
  String.ofList (List.replicate 130 'p')

def longFile : String :=
  String.ofList (List.replicate 130 'q' ++ ['.', 'd'])

/-- Its names are short enough for files, but that of its listing is not. -/
def longSource : Source where
  path := longDir ++ "/" ++ longFile
  hasTests := true

def shortSource : Source where
  path := "lib.d"
  hasTests := true

def listingTree : FileTree where
  entries := [(["lib.lst"], .file false (Utf8.encode "0000000|x\n"))]

theorem processOne_refused (hs : IsSurveyed s)
    (hfile : t.isFile workingDir (listingAt dir s.path) = .error e) (r : Report) :
    processOne workingDir dir r s t = .error e t := by
  rw [processOne, hs.1, hs.2]
  simp only [Bool.not_true, Bool.false_eq_true, if_false]
  rw [consume_eq, hfile]

theorem toList_longDir : longDir.toList = List.replicate 130 'p' :=
  String.toList_ofList

theorem toList_longFile : longFile.toList = List.replicate 130 'q' ++ ['.', 'd'] :=
  String.toList_ofList

theorem toList_longSource :
    longSource.path.toList =
      List.replicate 130 'p' ++ ['/'] ++ (List.replicate 130 'q' ++ ['.', 'd']) := by
  have hpath : longSource.path = longDir ++ "/" ++ longFile := rfl
  have hslash : ("/" : String).toList = ['/'] := rfl
  rw [hpath, String.toList_append, String.toList_append, toList_longDir, toList_longFile, hslash]

theorem isSurveyed_longSource : IsSurveyed longSource := by
  have hsuffix : Source.suffix.toList = ['.', 'd'] := rfl
  have hargument : Source.isArgument longSource.path = true := by
    rw [Source.isArgument, Text.startsWith, Text.endsWith, toList_longSource, hsuffix]
    decide +kernel
  exact ⟨hargument, rfl⟩

/-- The system never answers for the listing of the long source in the working directory. -/
theorem isFile_longSource {place : Place}
    (hplace : t.locate workingDir (Path.ofString ".") = .ok place)
    (hentry : t.entryAt place = some .directory) (hsearch : t.denies place .search = false) :
    t.isFile workingDir (listingAt (Path.ofString ".") longSource.path) = .error .nameTooLong := by
  have hlong : FileTree.maxNameBytes < (listingName longSource.path).utf8ByteSize := by
    refine Nat.lt_of_lt_of_le ?_ (Utf8.length_le_utf8ByteSize _)
    rw [toList_listingName, toList_longSource]
    decide +kernel
  have hnul : (listingAt (Path.ofString ".") longSource.path).hasNul = false := by
    have hnames : (listingAt (Path.ofString ".") longSource.path).names =
        [listingName longSource.path] := by
      rw [listingAt, Path.child]
      rfl
    rw [Path.hasNul, hnames, List.any_cons, List.any_nil, Bool.or_false, toList_listingName,
      toList_longSource]
    decide +kernel
  exact FileTree.isFile_long (isPlain_listingName _) hlong hnul hplace hentry hsearch

/-- The only row of the listing was never executed, and nobody learns of it. -/
theorem process_listing_lost :
    process [] (Path.ofString ".") [shortSource, longSource] listingTree =
      .error .nameTooLong {} := by
  have hshort : ∃ r, processOne [] (Path.ofString ".") {} shortSource listingTree = .ok r {} :=
    ⟨_, rfl⟩
  obtain ⟨r, hshort⟩ := hshort
  have hfile : ({} : FileTree).isFile [] (listingAt (Path.ofString ".") longSource.path) =
      .error .nameTooLong :=
    isFile_longSource rfl rfl rfl
  rw [process, List.foldlM_cons, Effect.bind_of_ok hshort, List.foldlM_cons,
    Effect.bind_of_error (processOne_refused isSurveyed_longSource hfile r)]

end TriplePass.Coverage
