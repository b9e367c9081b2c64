import TriplePass.Proofs.Coverage.Grouping
import TriplePass.Proofs.FileTree.LinkFree

/-! # What a cleaning removes

The listings of a directory are gone through in ascending order, and each is judged by the files
that are left when its turn comes: a link may have lost what it led to by then. One that is stale
goes, unless the system keeps it. Without links there is nothing that a removal could take from
another name, and the first look at the directory decides.
-/
namespace TriplePass

namespace FileTree
variable {t : FileTree} {place : Place} {name : String}

def without (t : FileTree) (place : Place) (names : List String) : FileTree :=
  names.foldl (fun t name => t.remove (place ++ [name])) t

theorem without_cons (t : FileTree) (place : Place) (name : String) (names : List String) :
    t.without place (name :: names) = (t.remove (place ++ [name])).without place names := rfl

theorem thinned_without (t : FileTree) (place : Place) (names : List String) :
    Thinned t (t.without place names) := by
  induction names generalizing t with
  | nil => exact .refl t
  | cons name rest ih => exact .remove _ (ih _)

theorem entryAt_without_other {names : List String} (h : name ∉ names) :
    (t.without place names).entryAt (place ++ [name]) = t.entryAt (place ++ [name]) := by
  induction names generalizing t with
  | nil => rfl
  | cons first rest ih =>
    obtain ⟨hfirst, hrest⟩ := not_or.1 (mt List.mem_cons.2 h)
    have hne : place ++ [name] ≠ place ++ [first] := fun heq =>
      hfirst (List.singleton_inj.1 (List.append_cancel_left heq))
    rw [without_cons, ih hrest, entryAt_remove_other t hne]

end FileTree

namespace Coverage
open FileTree (IsPlain LinkFree Thinned)
variable {t u v : FileTree} {workingDir place : Place} {dir p : Path} {name other first : String}
  {names rest removed : List String} {lastSource : Option String} {gone : List Path} {e : Errno}

/-! ### Stale listings -/

theorem numbersFrom_eq_nil_iff {α : Type} {n : Nat} {q : α → Bool} {rows : List α} :
    numbersFrom n q rows = [] ↔ ∀ row ∈ rows, q row = false := by
  induction rows generalizing n with
  | nil => simp
  | cons row rows ih =>
    rw [numbersFrom_cons, List.forall_mem_cons, ← ih (n := n + 1)]
    cases q row <;> simp

/-- Both readers of a listing agree on whether a line of it was never executed. -/
theorem hasZeroLine_iff {content : Bytes} : hasZeroLine content = true ↔ uncovered content ≠ [] := by
  rw [hasZeroLine, uncovered_eq, ne_eq, numbersFrom_eq_nil_iff, List.any_eq_true]
  simp

def IsStaleFile (t : FileTree) (workingDir : Place) (p : Path) : Prop :=
  t.isFile workingDir p = .ok true ∧
    (t.isEmptyFile workingDir p = true ∨ uncoveredAt t workingDir p ≠ [])

theorem isStaleAt_iff :
    isStaleAt t workingDir p = true ↔
      t.isEmptyFile workingDir p = true ∨ uncoveredAt t workingDir p ≠ [] := by
  unfold isStaleAt uncoveredAt
  rw [Bool.or_eq_true]
  refine or_congr_right ?_
  cases t.read workingDir p with
  | error e => simp
  | ok content => exact hasZeroLine_iff

/-- A listing of that name is a left-over: that of the stand-in for an entry point, that of the last
source, or one from another directory. -/
def MayGo (lastSource : Option String) (name : String) : Prop :=
  name = internalListing ∨ (∃ source, lastSource = some source ∧ listingName source = name) ∨
    '-' ∈ name.toList

theorem isCandidate_iff : isCandidate lastSource name = true ↔ MayGo lastSource name := by
  simp [isCandidate, MayGo, Option.any_eq_true, or_assoc]

structure Goes (t : FileTree) (workingDir : Place) (dir : Path) (lastSource : Option String)
    (name : String) : Prop where
  mayGo : MayGo lastSource name
  stale : IsStaleFile t workingDir (dir.child name)
  /-- The system lets it go. -/
  free : t.keeps workingDir dir name = false

theorem goes_iff (hfile : t.isFile workingDir (dir.child name) = .ok true) :
    Goes t workingDir dir lastSource name ↔
      (isCandidate lastSource name && isStaleAt t workingDir (dir.child name)) = true ∧
        t.keeps workingDir dir name = false := by
  rw [Bool.and_eq_true, isCandidate_iff, isStaleAt_iff]
  exact ⟨fun h => ⟨⟨h.mayGo, h.stale.2⟩, h.free⟩, fun h => ⟨h.1.1, ⟨hfile, h.1.2⟩, h.2⟩⟩

theorem cleanOne_goes {gone : Bool} (h : cleanOne workingDir dir lastSource name t = .ok gone u) :
    (∃ answer, t.isFile workingDir (dir.child name) = .ok answer) ∧
      (gone = true ↔ Goes t workingDir dir lastSource name) := by
  rw [cleanOne_eq] at h
  split at h
  next hfile =>
    refine ⟨⟨true, hfile⟩, ?_⟩
    rw [goes_iff hfile]
    split at h
    next hstale =>
      cases h
      simp [hstale]
    next hstays =>
      cases h
      simp [hstays]
  next hfile =>
    cases h
    refine ⟨⟨false, hfile⟩, iff_of_false Bool.false_ne_true fun hgoes => ?_⟩
    cases hfile.symm.trans hgoes.stale.1
  next => cases h

theorem goes_unlinked (h : t.LinkFree workingDir dir) (hname : IsPlain name)
    (hother : IsPlain other) (hdir : dir.toString ≠ "") (hne : other ≠ name)
    (hfile : t.isFile workingDir (dir.child name) = .ok true) :
    Goes (t.unlinked workingDir dir name) workingDir dir lastSource other ↔
      Goes t workingDir dir lastSource other := by
  have hthinned := Thinned.unlinked t workingDir dir name
  have hsame := h.isFile_unlinked hname hother hdir hne hfile
  have hempty := h.isEmptyFile_unlinked hname hother hdir hne hfile
  by_cases hlisted : t.isFile workingDir (dir.child other) = .ok true
  · have hlines := uncoveredAt_left hthinned (hsame.trans hlisted)
    have hkeeps := hthinned.keeps hother hdir (hsame.trans hlisted)
    rw [goes_iff (hsame.trans hlisted), goes_iff hlisted, Bool.and_eq_true, Bool.and_eq_true,
      isStaleAt_iff, isStaleAt_iff, hempty, hlines, hkeeps]
  · refine iff_of_false (fun hgoes => hlisted ?_) fun hgoes => hlisted hgoes.stale.1
    exact hsame.symm.trans hgoes.stale.1

/-! ### Name by name -/

theorem forall_mem_cons_of_ne {α : Type} {P : α → Prop} {a : α} {l : List α} (ha : P a)
    (hl : ∀ b ∈ l, b ≠ a → P b) : ∀ b ∈ a :: l, P b := by
  intro b hb
  by_cases h : b = a
  · exact h ▸ ha
  · exact hl b ((List.mem_cons.1 hb).resolve_left h) h

def atTurn (t : FileTree) (place : Place) (removed : List String) (name : String) : FileTree :=
  t.without place (removed.filter fun earlier => earlier < name)

theorem atTurn_least (h : ∀ name ∈ removed, first ≤ name) : atTurn t place removed first = t := by
  have hnone : (removed.filter fun earlier => earlier < first) = [] := by
    rw [List.filter_eq_nil_iff]
    intro earlier hearlier hless
    exact String.not_le.2 (of_decide_eq_true hless) (h earlier hearlier)
  rw [atTurn, hnone]
  rfl

theorem atTurn_cons (h : first < name) :
    atTurn t place (first :: removed) name =
      atTurn (t.remove (place ++ [first])) place removed name := by
  have hfirst : ((first :: removed).filter fun earlier => earlier < name) =
      first :: removed.filter fun earlier => earlier < name :=
    List.filter_cons_of_pos (decide_eq_true h)
  rw [atTurn, hfirst, FileTree.without_cons]
  rfl

/-- Names in ascending order were gone through: those that are removed are those that went at their
turn, and for each of them the system has given an answer. -/
structure Swept (t : FileTree) (workingDir : Place) (dir : Path) (lastSource : Option String)
    (place : Place) (names removed : List String) (u : FileTree) : Prop where
  among : ∀ name ∈ removed, name ∈ names
  ascending : removed.Pairwise (· < ·)
  answered : ∀ name ∈ names, ∃ answer,
    (atTurn t place removed name).isFile workingDir (dir.child name) = .ok answer
  goes : ∀ name ∈ names,
    (name ∈ removed ↔ Goes (atTurn t place removed name) workingDir dir lastSource name)
  left : u = t.without place removed
  /-- Without links no turn matters. -/
  linkFree : t.LinkFree workingDir dir →
    ∀ name ∈ names, (name ∈ removed ↔ Goes t workingDir dir lastSource name)

namespace Swept

theorem nil (t : FileTree) (workingDir : Place) (dir : Path) (lastSource : Option String)
    (place : Place) : Swept t workingDir dir lastSource place [] [] t where
  among := fun _ hname => hname
  ascending := .nil
  answered := fun _ hname => absurd hname List.not_mem_nil
  goes := fun _ hname => absurd hname List.not_mem_nil
  left := rfl
  linkFree := fun _ _ hname => absurd hname List.not_mem_nil

theorem keep (h : Swept t workingDir dir lastSource place rest removed u)
    (hleast : ∀ name ∈ rest, first ≤ name) {answer : Bool}
    (hanswer : t.isFile workingDir (dir.child first) = .ok answer)
    (hstays : ¬Goes t workingDir dir lastSource first) :
    Swept t workingDir dir lastSource place (first :: rest) removed u := by
  have hturn : atTurn t place removed first = t :=
    atTurn_least fun name hname => hleast name (h.among name hname)
  have hkept : first ∉ removed := by
    intro hmem
    have hgoes := (h.goes first (h.among first hmem)).1 hmem
    rw [hturn] at hgoes
    exact hstays hgoes
  refine ⟨fun name hname => List.mem_cons_of_mem _ (h.among name hname), h.ascending,
    List.forall_mem_cons.2 ⟨⟨answer, hturn.symm ▸ hanswer⟩, h.answered⟩,
    List.forall_mem_cons.2 ⟨?_, h.goes⟩, h.left,
    fun hlinks => List.forall_mem_cons.2 ⟨?_, h.linkFree hlinks⟩⟩
  · rw [hturn]
    exact iff_of_false hkept hstays
  · exact iff_of_false hkept hstays

theorem remove (h : Swept (t.remove (place ++ [first])) workingDir dir lastSource place rest removed u)
    (hdir : dir.toString ≠ "") (hplain : ∀ name ∈ first :: rest, IsPlain name)
    (hleast : ∀ name ∈ rest, first ≤ name)
    (hunlink : t.unlinked workingDir dir first = t.remove (place ++ [first]))
    (hgoes : Goes t workingDir dir lastSource first) :
    Swept t workingDir dir lastSource place (first :: rest) (first :: removed) u := by
  have hfile := hgoes.stale.1
  have hgone : (t.remove (place ++ [first])).isFile workingDir (dir.child first) = .ok false :=
    hunlink ▸ FileTree.isFile_unlinked (hplain first List.mem_cons_self) hdir hfile hgoes.free
  -- a name that is listed twice is no file any more when it comes again
  have hfresh : first ∉ removed := by
    intro hmem
    have hagain := ((h.goes first (h.among first hmem)).1 hmem).stale.1
    rw [atTurn, (FileTree.thinned_without _ place _).isFile_false hgone] at hagain
    cases hagain
  have hlater : ∀ name ∈ rest, name ≠ first → first < name := fun name hname hne =>
    Std.lt_of_le_of_ne (hleast name hname) hne.symm
  have hturn : atTurn t place (first :: removed) first = t :=
    atTurn_least (List.forall_mem_cons.2
      ⟨String.le_refl first, fun name hname => hleast name (h.among name hname)⟩)
  refine ⟨?_, ?_, ?_, ?_, ?_, ?_⟩
  · intro name hname
    rcases List.mem_cons.1 hname with rfl | hname
    · exact List.mem_cons_self
    · exact List.mem_cons_of_mem _ (h.among name hname)
  · refine .cons (fun name hname => ?_) h.ascending
    exact hlater name (h.among name hname) fun heq => hfresh (heq ▸ hname)
  · refine forall_mem_cons_of_ne ⟨true, hturn.symm ▸ hfile⟩ fun name hname hne => ?_
    rw [atTurn_cons (hlater name hname hne)]
    exact h.answered name hname
  · refine forall_mem_cons_of_ne (iff_of_true List.mem_cons_self (hturn.symm ▸ hgoes)) ?_
    intro name hname hne
    rw [atTurn_cons (hlater name hname hne), ← h.goes name hname]
    simp [hne]
  · rw [FileTree.without_cons]
    exact h.left
  · intro hlinks
    refine forall_mem_cons_of_ne (iff_of_true List.mem_cons_self hgoes) fun name hname hne => ?_
    have hsame : Goes (t.unlinked workingDir dir first) workingDir dir lastSource name ↔
        Goes t workingDir dir lastSource name :=
      goes_unlinked hlinks (hplain first List.mem_cons_self)
        (hplain name (List.mem_cons_of_mem _ hname)) hdir hne hfile
    have hswept := h.linkFree (hlinks.thinned (.one t _)) name hname
    rw [← hunlink, hsame] at hswept
    rw [← hswept]
    simp [hne]

end Swept

theorem cleanEach_swept (hdir : dir.toString ≠ "")
    (hplace : ∀ q, t.locate workingDir dir = .ok q → q = place)
    (hplain : ∀ name ∈ names, IsPlain name) (hsorted : names.Pairwise (· ≤ ·))
    (h : cleanEach workingDir dir lastSource names t = .ok gone u) :
    ∃ removed, gone = removed.map dir.child ∧
      Swept t workingDir dir lastSource place names removed u := by
  induction names generalizing t gone with
  | nil =>
    cases h
    exact ⟨[], rfl, .nil _ workingDir dir lastSource place⟩
  | cons first rest ih =>
    obtain ⟨hleast, hrest⟩ := List.pairwise_cons.1 hsorted
    have hplain' := (List.forall_mem_cons.1 hplain).2
    obtain ⟨goes, v, hone, h⟩ := Effect.bind_ok h
    obtain ⟨more, w, hmore, h⟩ := Effect.bind_ok h
    cases h
    obtain ⟨⟨answer, hanswer⟩, hgoes⟩ := cleanOne_goes hone
    rcases cleanOne_cases hone with ⟨rfl, hfile, hfree, rfl⟩ | ⟨rfl, rfl⟩
    · have hgoes := hgoes.1 rfl
      have hunlink : t.unlinked workingDir dir first = t.remove (place ++ [first]) := by
        obtain ⟨place', hplace', -, entry, hentry, -⟩ :=
          FileTree.entry_of_isFile (hplain first List.mem_cons_self) hdir hfile
        rw [FileTree.unlinked_of_goes hplace' (hentry ▸ rfl) hfree, hplace place' hplace']
      rw [hunlink] at hmore
      obtain ⟨removed, rfl, hswept⟩ :=
        ih (fun q hq => hplace q ((t.locate_remove _ workingDir dir).ok hq)) hplain' hrest hmore
      exact ⟨first :: removed, rfl, hswept.remove hdir hplain hleast hunlink hgoes⟩
    · obtain ⟨removed, rfl, hswept⟩ := ih hplace hplain' hrest hmore
      exact ⟨removed, rfl, hswept.keep hleast hanswer fun hg => Bool.false_ne_true (hgoes.2 hg)⟩

/-! ### The whole directory -/

structure Listed (t : FileTree) (workingDir : Place) (dir : Path) (place : Place)
    (names : List String) : Prop where
  locate : t.locate workingDir dir = .ok place
  mem_iff : ∀ name, name ∈ names ↔ t.denies place .read = false ∧
    t.entryAt (place ++ [name]) ≠ none ∧ Text.endsWith name listingExtension = true
  ascending : names.Pairwise (· ≤ ·)

theorem listed_listingNames (hplace : t.locate workingDir dir = .ok place) :
    Listed t workingDir dir place (listingNames t workingDir dir) := by
  refine ⟨hplace, fun name => mem_listingNames_iff hplace, ?_⟩
  unfold listingNames
  split
  next names _ =>
    have hsorted := @List.pairwise_mergeSort String (fun a b => decide (a ≤ b))
      (fun a b c hab hbc =>
        decide_eq_true (String.le_trans (of_decide_eq_true hab) (of_decide_eq_true hbc)))
      (fun a b => by simpa only [Bool.or_eq_true, decide_eq_true_eq] using String.le_total a b)
      (names.filter (Text.endsWith · listingExtension))
    exact hsorted.imp of_decide_eq_true
  next => exact .nil

/-- A name that the system refuses to answer for stops every cleaning that comes to it, and a
cleaning that finds nothing to remove in front of it comes to it. -/
theorem cleanEach_refused {refused : String} (hsorted : names.Pairwise (· ≤ ·))
    (hmem : refused ∈ names) (hfile : t.isFile workingDir (dir.child refused) = .error e)
    (hstays : ∀ name ∈ names, name < refused → Stays workingDir dir lastSource t name) :
    cleanEach workingDir dir lastSource names t = .error e t := by
  induction names with
  | nil => exact absurd hmem List.not_mem_nil
  | cons first rest ih =>
    obtain ⟨hleast, hrest⟩ := List.pairwise_cons.1 hsorted
    by_cases heq : refused = first
    · subst heq
      have hone : cleanOne workingDir dir lastSource refused t = .error e t := by
        rw [cleanOne_eq, hfile]
      rw [cleanEach, Effect.bind_of_error hone]
    · have hmem := (List.mem_cons.1 hmem).resolve_left heq
      have hfirst := hstays first List.mem_cons_self
        (Std.lt_of_le_of_ne (hleast refused hmem) fun h => heq h.symm)
      have hbroken := ih hrest hmem fun name hname => hstays name (List.mem_cons_of_mem _ hname)
      rw [cleanEach, Effect.bind_of_ok hfirst, Effect.bind_of_error hbroken]

theorem cleanup_of_unaskable (h : t.isDirectory workingDir dir = .error e) :
    cleanup workingDir dir lastSource t = .error e t := by
  have hask : Survey.asking (·.isDirectory workingDir dir) t = .error e t := by
    rw [Survey.asking, h]
  rw [cleanup, Effect.bind_of_error hask]

def Settled (workingDir : Place) (dir : Path) (lastSource : Option String) (t : FileTree) : Prop :=
  cleanup workingDir dir lastSource t = .ok [] t ∨
    ∃ e : Errno, e.Unanswered ∧ cleanup workingDir dir lastSource t = .error e t

/-- Where a cleaning was refused the next one is refused for the same name. -/
theorem settled_of_refused (hdir : dir.toString ≠ "") (ht : t.WellNamed)
    {before after : List String} {refused : String}
    (hnames : listingNames t workingDir dir = before ++ refused :: after)
    (hclean : cleanEach workingDir dir lastSource before t = .ok gone u)
    (hswept : Swept t workingDir dir lastSource place before removed u)
    (hlisted : Listed t workingDir dir place (before ++ refused :: after))
    (hfile : u.isFile workingDir (dir.child refused) = .error e) :
    Settled workingDir dir lastSource u := by
  have hfit : ∀ name ∈ before, IsPlain name ∧ Text.endsWith name listingExtension = true :=
    fun name hname => listingNames_fit ht (hnames ▸ List.mem_append_left _ hname)
  have hstays := cleanEach_stays hdir hfit hclean
  have hthinned : Thinned t u := hswept.left ▸ FileTree.thinned_without t place removed
  have hfresh : refused ∉ removed := by
    intro hmem
    have hanswered := hstays refused (hswept.among refused hmem)
    rw [Stays, cleanOne_eq, hfile] at hanswered
    cases hanswered
  cases hdirectory : u.isDirectory workingDir dir with
  | error e' =>
    exact .inr ⟨e', FileTree.isDirectory_error hdirectory, cleanup_of_unaskable hdirectory⟩
  | ok isDirectory =>
    cases isDirectory with
    | false => exact .inl (cleanup_of_missing hdirectory)
    | true =>
      obtain ⟨place', hplace'⟩ := FileTree.locate_of_isDirectory hdirectory
      cases hlisted.locate.symm.trans ((hthinned.locate workingDir dir).ok hplace')
      have hleft := listed_listingNames hplace'
      refine .inr ⟨e, FileTree.isFile_error hfile, ?_⟩
      rw [cleanup_of_directory hdirectory]
      refine cleanEach_refused hleft.ascending ?_ hfile ?_
      · rw [hleft.mem_iff, hthinned.denies, hswept.left, FileTree.entryAt_without_other hfresh,
          ← hlisted.mem_iff]
        simp
      · -- in front of the refused name there are only names that were gone through before
        intro name hname hless
        have hbefore := hnames ▸ listingNames_thinned hthinned hname
        obtain ⟨-, hafter, -⟩ := List.pairwise_append.1 hlisted.ascending
        rcases List.mem_append.1 hbefore with hmem | hmem
        · exact hstays name hmem
        · have hle : refused ≤ name := by
            rcases List.mem_cons.1 hmem with rfl | hmem
            · exact String.le_refl name
            · exact (List.pairwise_cons.1 hafter).1 name hmem
          exact absurd hle (String.not_le.2 hless)

/-- How a cleaning ends: the directory is missing, or its listings were gone through, all of them or
those before one that the system refuses to answer for. -/
inductive Cleaned (t : FileTree) (workingDir : Place) (dir : Path) (lastSource : Option String) :
    EStateM.Result Errno FileTree (List Path) → Prop where
  | missing : t.isDirectory workingDir dir = .ok false →
      Cleaned t workingDir dir lastSource (.ok [] t)
  | swept {place : Place} {names removed : List String} {u : FileTree} :
      t.isDirectory workingDir dir = .ok true → Listed t workingDir dir place names →
      Swept t workingDir dir lastSource place names removed u →
      Cleaned t workingDir dir lastSource (.ok (removed.map dir.child) u)
  | unaskable {e : Errno} : e.Unanswered → t.isDirectory workingDir dir = .error e →
      Cleaned t workingDir dir lastSource (.error e t)
  | refused {place : Place} {before after removed : List String} {name : String} {u : FileTree}
      {e : Errno} :
      e.Unanswered → t.isDirectory workingDir dir = .ok true →
      Listed t workingDir dir place (before ++ name :: after) →
      Swept t workingDir dir lastSource place before removed u →
      u.isFile workingDir (dir.child name) = .error e →
      Cleaned t workingDir dir lastSource (.error e u)

/-- What a cleaning removes is determined name by name, in ascending order, and when it is repeated
it removes nothing and changes nothing. It can only be kept from returning where the system does not
say whether the directory or a listing is there. -/
theorem cleanup_cleaned (workingDir : Place) (dir : String) (lastSource : Option String)
    (ht : t.WellNamed) :
    Cleaned t workingDir (Path.ofString dir) lastSource
        (cleanup workingDir (Path.ofString dir) lastSource t) ∧
      match cleanup workingDir (Path.ofString dir) lastSource t with
      | .ok _ u => cleanup workingDir (Path.ofString dir) lastSource u = .ok [] u
      | .error _ u => Settled workingDir (Path.ofString dir) lastSource u := by
  have hdir := Path.toString_ofString_ne_empty dir
  cases hdirectory : t.isDirectory workingDir (Path.ofString dir) with
  | error e =>
    have he := FileTree.isDirectory_error hdirectory
    have hclean : cleanup workingDir (Path.ofString dir) lastSource t = .error e t :=
      cleanup_of_unaskable hdirectory
    rw [hclean]
    exact ⟨.unaskable he hdirectory, .inr ⟨e, he, hclean⟩⟩
  | ok isDirectory =>
    cases isDirectory with
    | false =>
      have hclean : cleanup workingDir (Path.ofString dir) lastSource t = .ok [] t :=
        cleanup_of_missing hdirectory
      rw [hclean]
      exact ⟨.missing hdirectory, hclean⟩
    | true =>
      obtain ⟨place, hplace⟩ := FileTree.locate_of_isDirectory hdirectory
      have hlisted := listed_listingNames hplace
      have hunique : ∀ q, t.locate workingDir (Path.ofString dir) = .ok q → q = place :=
        fun q hq => Except.ok.inj (hq.symm.trans hplace)
      have hplain : ∀ name ∈ listingNames t workingDir (Path.ofString dir), IsPlain name :=
        fun name hname => (listingNames_fit ht hname).1
      have hwhole : cleanup workingDir (Path.ofString dir) lastSource t = _ :=
        cleanup_of_directory hdirectory
      cases hclean : cleanup workingDir (Path.ofString dir) lastSource t with
      | ok gone u =>
        obtain ⟨removed, rfl, hswept⟩ :=
          cleanEach_swept hdir hunique hplain hlisted.ascending (hwhole ▸ hclean)
        exact ⟨.swept hdirectory hlisted hswept, cleanup_again hdir ht hclean⟩
      | error e u =>
        obtain ⟨before, name, after, gone, hnames, hbefore, hfile⟩ :=
          cleanEach_error (hwhole ▸ hclean)
        have he := FileTree.isFile_error hfile
        have hlisted' := hnames ▸ hlisted
        obtain ⟨removed, -, hswept⟩ := cleanEach_swept hdir hunique
          (fun name hname => hplain name (hnames ▸ List.mem_append_left _ hname))
          (List.pairwise_append.1 hlisted'.ascending).1 hbefore
        exact ⟨.refused he hdirectory hlisted' hswept hfile,
          settled_of_refused hdir ht hnames hbefore hswept hlisted' hfile⟩

/-! ### Old listings -/

/-- A listing in use, an old one that is empty, and a link to that. -/
def oldTree : FileTree where
  entries :=
    [(["lib.lst"], .file false zeroRow), (["old-mod.lst"], .file false []),
      (["old-view.lst"], .link "old-mod.lst")]

def oldTreeCleaned : FileTree where
  entries := [(["lib.lst"], .file false zeroRow), (["old-view.lst"], .link "old-mod.lst")]

/-- The link leads nowhere by the time of its turn. -/
theorem cleanup_cleaned_old :
    oldTree.WellNamed ∧
      Cleaned oldTree [] (Path.ofString ".") none (.ok [Path.ofString "old-mod.lst"] oldTreeCleaned) ∧
      cleanup [] (Path.ofString ".") none oldTreeCleaned = .ok [] oldTreeCleaned := by
  have hnamed : oldTree.WellNamed := by decide
  have hnames : listingNames oldTree [] (Path.ofString ".") =
      ["lib.lst", "old-mod.lst", "old-view.lst"] :=
    listingNames_of_pairwise rfl rfl rfl (by decide)
  have hclean : cleanup [] (Path.ofString ".") none oldTree =
      .ok [Path.ofString "old-mod.lst"] oldTreeCleaned := by
    rw [cleanup_of_directory rfl, hnames]
    rfl
  obtain ⟨hcleaned, hagain⟩ := cleanup_cleaned [] "." none hnamed
  rw [hclean] at hcleaned hagain
  exact ⟨hnamed, hcleaned, hagain⟩

/-- What the link names is too long for a name of a file. -/
def strayTree : FileTree where
  entries := [(["a-b.lst"], .link FileTree.longName), (["old-mod.lst"], .file false [])]

/-- The old listing may go and is stale, but the cleaning is refused at the link in front of it. -/
theorem cleanup_breaks_off :
    Goes strayTree [] (Path.ofString ".") none "old-mod.lst" ∧
      cleanup [] (Path.ofString ".") none strayTree = .error .nameTooLong strayTree := by
  have hfile : strayTree.isFile [] ((Path.ofString ".").child "a-b.lst") = .error .nameTooLong := by
    have hlocate : strayTree.locate [] ((Path.ofString ".").child "a-b.lst") = .error .nameTooLong :=
      FileTree.locate_link_long (by decide) (by decide) FileTree.isPlain_longName
        FileTree.maxNameBytes_lt_longName rfl rfl rfl
    rw [FileTree.isFile, FileTree.status, hlocate]
    rfl
  have hnames : listingNames strayTree [] (Path.ofString ".") = ["a-b.lst", "old-mod.lst"] :=
    listingNames_of_pairwise rfl rfl rfl (by decide)
  refine ⟨⟨.inr (.inr (by decide)), ⟨rfl, .inl rfl⟩, rfl⟩, ?_⟩
  rw [cleanup_of_directory rfl]
  refine cleanEach_refused (listed_listingNames rfl).ascending (hnames ▸ List.mem_cons_self) hfile ?_
  intro name hname hless
  rw [hnames] at hname
  rcases List.mem_cons.1 hname with rfl | hname
  · exact absurd hless (String.lt_irrefl _)
  · cases List.mem_singleton.1 hname
    exact absurd hless (by decide)

end Coverage
end TriplePass
