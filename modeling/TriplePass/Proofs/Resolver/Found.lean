import TriplePass.Proofs.FileTree.Normal
import TriplePass.Proofs.Resolver.Reachable

/-! # The programs that a resolver finds

A resolver tries written paths and answers with the path of the first that leads to a program. The
answer is written differently, but it leads to the same program.
-/
namespace TriplePass.Resolver
variable {t : FileTree} {workingDir q : Place} {r : Resolver} {name s : String} {path : Path}

def program? (t : FileTree) (workingDir : Place) (s : String) : Option Place :=
  if isProgram t workingDir s then (t.locateText workingDir s).toOption else none

theorem isProgram_iff :
    isProgram t workingDir s = true ↔ '\x00' ∉ s.toList ∧
      ∃ q content, t.locateText workingDir s = .ok q ∧ t.entryAt q = some (.file true content) := by
  unfold isProgram
  cases hl : t.locateText workingDir s with
  | error e => simp
  | ok q =>
    cases he : t.entryAt q with
    | none => simp [he]
    | some entry => cases entry <;> simp [he]

theorem program?_eq_some_iff :
    program? t workingDir s = some q ↔ '\x00' ∉ s.toList ∧ t.locateText workingDir s = .ok q ∧
      ∃ content, t.entryAt q = some (.file true content) := by
  unfold program?
  constructor
  · intro h
    split at h
    next hprogram =>
      obtain ⟨hnul, q', content, hl, he⟩ := isProgram_iff.1 hprogram
      rw [hl] at h
      cases h
      exact ⟨hnul, hl, content, he⟩
    next => cases h
  · rintro ⟨hnul, hl, content, he⟩
    rw [if_pos (isProgram_iff.2 ⟨hnul, q, content, hl, he⟩), hl]
    rfl

theorem isSome_program? : (program? t workingDir s).isSome = isProgram t workingDir s := by
  unfold program?
  split
  next h =>
    obtain ⟨_, q, _, hl, _⟩ := isProgram_iff.1 h
    rw [hl, h]
    rfl
  next h => rw [Bool.eq_false_iff.2 h]; rfl

theorem ne_empty_of_program (h : program? t workingDir s = some q) : s ≠ "" := by
  rintro rfl
  obtain ⟨_, hl, _⟩ := program?_eq_some_iff.1 h
  rw [FileTree.locateText, if_pos rfl] at hl
  cases hl

/-- The path of a program, written out again, leads to the program. -/
theorem program?_toString (h : program? t workingDir s = some q) :
    program? t workingDir (Path.ofString s).toString = some q := by
  have hs := ne_empty_of_program h
  obtain ⟨hnul, hl, hentry⟩ := program?_eq_some_iff.1 h
  refine program?_eq_some_iff.2 ⟨?_, FileTree.locateText_toString hl, hentry⟩
  intro hmem
  exact hnul ((Path.toString_sublist hs).subset hmem)

structure Current (t : FileTree) (workingDir : Place) (r : Resolver) : Prop where
  known : ∀ name path, Dictionary.get? r.known name = some (some path) →
    lookup t workingDir r.directories name = some path

theorem Current.fresh (t : FileTree) (workingDir : Place) (dirs : List Path) :
    Current t workingDir { directories := dirs } where
  known _ _ h := nomatch h

theorem Current.lookup (hr : r.Current t workingDir) (h : r.answer t workingDir name = some path) :
    Resolver.lookup t workingDir r.directories name = some path := by
  cases hknown : Dictionary.get? r.known name with
  | some found =>
    rw [answer_of_known hknown] at h
    exact hr.known name path (h ▸ hknown)
  | none => rwa [answer_of_unknown hknown] at h

/-- What a resolver answers it has found at one of the paths that are tried. -/
theorem Current.answer (hr : r.Current t workingDir) (h : r.answer t workingDir name = some path) :
    ∃ candidate ∈ candidates r.directories name, ∃ q,
      program? t workingDir candidate = some q ∧ path = Path.ofString candidate := by
  obtain ⟨candidate, hfind, rfl⟩ := Option.map_eq_some_iff.1 (hr.lookup h)
  have hprogram := List.find?_some hfind
  rw [← isSome_program?] at hprogram
  obtain ⟨q, hq⟩ := Option.isSome_iff_exists.1 hprogram
  exact ⟨candidate, List.mem_of_find?_eq_some hfind, q, hq, rfl⟩

theorem Current.resolve (hr : r.Current t workingDir) (name : String) :
    (r.resolve t workingDir name).2.Current t workingDir := by
  cases hknown : Dictionary.get? r.known name with
  | some found =>
    simp only [Resolver.resolve, hknown]
    exact hr
  | none =>
    simp only [Resolver.resolve, hknown]
    constructor
    intro other path hother
    rw [Dictionary.get?_set] at hother
    by_cases hname : other = name
    · rw [if_pos hname] at hother
      rw [hname]
      exact Option.some.inj hother
    · rw [if_neg hname] at hother
      exact hr.known other path hother

/-! ### The same search once more -/

variable {dir : String}

theorem below_eq (hdir : dir ≠ "") (name : String) :
    ∃ front, below dir name = front ++ "/" ++ name ∧
      (dir = front ∧ Text.endsWith dir "/" = false ∨ dir = front ++ "/") := by
  rw [below, if_neg hdir]
  split
  next hend =>
    obtain ⟨front, hfront⟩ := List.isSuffixOf_iff_suffix.1 hend
    have hchars : dir = String.ofList front ++ "/" := by
      apply String.toList_injective
      rw [String.toList_append, String.toList_ofList, ← hfront]
    exact ⟨String.ofList front, by rw [← hchars], .inr hchars⟩
  next hend => exact ⟨dir, rfl, .inl ⟨rfl, Bool.eq_false_iff.2 hend⟩⟩

theorem textNames_slash (front : String) :
    FileTree.textNames (front ++ "/") = FileTree.textNames front := by
  have hchars : (front ++ "/").toList = front.toList ++ '/' :: [] := String.toList_append
  rw [FileTree.textNames, FileTree.textNames, Path.fields_slash, Path.fields_slash, hchars,
    Text.fieldsFrom_append, List.map_append, List.filter_append]
  exact List.append_nil _

/-- A name below a directory is the directory's child. -/
theorem ofString_below (hdir : dir ≠ "") (hname : IsBare name) :
    Path.ofString (below dir name) = (Path.ofString dir).child name := by
  have hslash := slash_not_mem hname.1
  have hne := Path.isName_ne_empty hname.2
  obtain ⟨front, hbelow, hfront⟩ := below_eq hdir name
  have hnames : (Path.ofString (below dir name)).names = (Path.ofString dir).names ++ [name] := by
    have hdirNames : FileTree.textNames dir = FileTree.textNames front := by
      rcases hfront with ⟨rfl, _⟩ | rfl
      · rfl
      · exact textNames_slash front
    rw [← FileTree.textNames_filter, ← FileTree.textNames_filter, hbelow, hdirNames,
      FileTree.textNames_append hslash hne, List.filter_append]
    congr 1
    simpa using hname.2
  have hanchor : (Path.ofString (below dir name)).anchor = (Path.ofString dir).anchor := by
    have hdirChars : dir.toList ≠ [] := fun hnil => hdir (String.toList_eq_nil_iff.1 hnil)
    have happend : ∃ rest, (below dir name).toList = dir.toList ++ rest ∧
        (dir.toList.getLast? ≠ some '/' ∨ rest.head? ≠ some '/') := by
      rcases hfront with ⟨rfl, hend⟩ | rfl
      · refine ⟨'/' :: name.toList, by simp [hbelow, String.toList_append], .inl ?_⟩
        intro hlast
        obtain ⟨init, hinit⟩ := List.getLast?_eq_some_iff.1 hlast
        have hsuffix : Text.endsWith dir "/" = true :=
          List.isSuffixOf_iff_suffix.2 ⟨init, hinit.symm⟩
        rw [hend] at hsuffix
        cases hsuffix
      · refine ⟨name.toList, by rw [hbelow, String.toList_append], .inr ?_⟩
        intro hhead
        exact hslash (List.mem_of_head? hhead)
    obtain ⟨rest, hchars, hrest⟩ := happend
    rw [Path.ofString, hchars]
    exact Path.anchorOf_append hdirChars hrest
  calc Path.ofString (below dir name)
      = ⟨(Path.ofString (below dir name)).anchor, (Path.ofString (below dir name)).names⟩ := rfl
    _ = (Path.ofString dir).child name := by rw [hanchor, hnames]; rfl

theorem steps_below (hname : IsBare name) (dir : String) :
    (FileTree.steps (below dir name)).getLast? = some name := by
  have hslash := slash_not_mem hname.1
  have hne := Path.isName_ne_empty hname.2
  by_cases hdir : dir = ""
  · have hsteps := FileTree.steps_append hslash hne ""
    rw [String.empty_append, FileTree.textNames_name hslash hne] at hsteps
    rw [below, if_pos hdir, hsteps]
    rfl
  · obtain ⟨front, hbelow, _⟩ := below_eq hdir name
    rw [hbelow, FileTree.steps_append hslash hne, FileTree.textNames_append hslash hne]
    exact List.getLast?_concat

theorem size_below (dir name : String) :
    (below dir name).utf8ByteSize ≤ dir.utf8ByteSize + 1 + name.utf8ByteSize := by
  have hslash : ("/" : String).utf8ByteSize = 1 := rfl
  unfold below
  split
  · omega
  · split
    · rw [String.utf8ByteSize_append]
      omega
    · rw [String.utf8ByteSize_append, String.utf8ByteSize_append, hslash]

theorem mem_below {c : Char} (hc : c ∈ (below dir name).toList) :
    c ∈ dir.toList ∨ c = '/' ∨ c ∈ name.toList := by
  have hslash : ("/" : String).toList = ['/'] := rfl
  unfold below at hc
  split at hc
  · exact .inr (.inr hc)
  · split at hc
    · rw [String.toList_append, List.mem_append] at hc
      exact hc.imp_right .inr
    · rw [String.toList_append, String.toList_append, hslash, List.mem_append, List.mem_append,
        List.mem_singleton, or_assoc] at hc
      exact hc

structure Searchable (name dir : String) : Prop where
  size : dir.utf8ByteSize + 1 + name.utf8ByteSize < FileTree.maxPathBytes
  nul : '\x00' ∉ dir.toList

/-- There, what a name leads to depends on the path alone. -/
theorem program?_below (hname : IsBare name) (hnul : '\x00' ∉ name.toList)
    (hdir : Searchable name dir) :
    program? t workingDir (below dir name) = some q ↔
      program? t workingDir (Path.ofString (below dir name)).toString = some q := by
  refine ⟨program?_toString, fun h => ?_⟩
  obtain ⟨_, hl, hentry⟩ := program?_eq_some_iff.1 h
  have hfits : ¬FileTree.maxPathBytes ≤ (below dir name).utf8ByteSize := by
    have hsize := size_below dir name
    have hbound := hdir.size
    omega
  refine program?_eq_some_iff.2 ⟨?_, 
    FileTree.locateText_of_toString hfits (steps_below hname dir) hname.2 hl, hentry⟩
  intro hmem
  rcases mem_below hmem with hmem | hmem | hmem
  · exact hdir.nul hmem
  · exact absurd hmem (by decide)
  · exact hnul hmem

theorem Searchable.normal (hdir : Searchable name dir) (hne : dir ≠ "") :
    Searchable name (Path.ofString dir).toString := by
  constructor
  · have hsize := Path.toString_size hne
    have hbound := hdir.size
    omega
  · intro hmem
    exact hdir.nul ((Path.toString_sublist hne).subset hmem)

def listed (searchPath : String) : List String :=
  (Text.fields listSeparator searchPath).filter (· != "")

theorem separator_not_mem {searchPath : String} {p : Path}
    (hp : p ∈ (ofSearchPath searchPath).directories) : ':' ∉ p.toString.toList := by
  obtain ⟨f, hf, rfl⟩ := List.mem_map.1 hp
  obtain ⟨hfield, hne⟩ := List.mem_filter.1 hf
  obtain ⟨chars, hchars, rfl⟩ := List.mem_map.1 hfield
  have hfree : ':' ∉ chars := Text.not_mem_field hchars
  intro hmem
  have hmem' := (Path.toString_sublist (by simpa using hne)).subset hmem
  rw [String.toList_ofList] at hmem'
  exact hfree hmem'

/-- A bare name is looked for below each directory of the search path. -/
theorem lookup_listed {searchPath : String} (hbare : hasSlash name = false)
    (h : lookup t workingDir (ofSearchPath searchPath).directories name = some path) :
    ∃ before f after, listed searchPath = before ++ f :: after ∧
      (∀ g ∈ before, isProgram t workingDir (below (Path.ofString g).toString name) = false) ∧
      isProgram t workingDir (below (Path.ofString f).toString name) = true ∧
      path = Path.ofString (below (Path.ofString f).toString name) := by
  obtain ⟨candidate, hfind, rfl⟩ := Option.map_eq_some_iff.1 h
  unfold candidates at hfind
  split at hfind
  · cases hfind
  next htext =>
    have hdirs : (ofSearchPath searchPath).directories.map Path.toString ≠ [] := by
      intro hnil
      rw [searchText, hnil, String.intercalate_nil] at htext
      exact htext rfl
    have hfields : Text.fields listSeparator (searchText (ofSearchPath searchPath).directories) =
        (ofSearchPath searchPath).directories.map Path.toString := by
      refine Text.fields_intercalate rfl hdirs fun f hf => ?_
      obtain ⟨p, hp, rfl⟩ := List.mem_map.1 hf
      exact separator_not_mem hp
    have hdirectories : (ofSearchPath searchPath).directories =
        (listed searchPath).map Path.ofString := rfl
    rw [hbare, if_neg Bool.false_ne_true, hfields, hdirectories, List.map_map, List.map_map,
      List.find?_map] at hfind
    obtain ⟨f, hfirst, rfl⟩ := Option.map_eq_some_iff.1 hfind
    obtain ⟨hprogram, before, after, hsplit, hbefore⟩ := List.find?_eq_some_iff_append.1 hfirst
    simp only [Function.comp_apply, Bool.not_eq_eq_eq_not, Bool.not_true] at hprogram hbefore
    exact ⟨before, f, after, hsplit, hbefore, hprogram, rfl⟩

/-- Elements that give nothing else may be left out of a search. -/
theorem findSome?_of_filter {α β : Type} {p : α → Bool} {f : α → Option β} {b : β} {l : List α}
    (hskip : ∀ a ∈ l, p a = false → f a = some b) (h : (l.filter p).findSome? f = some b) :
    l.findSome? f = some b := by
  induction l with
  | nil => exact h
  | cons a l ih =>
    obtain ⟨ha, hl⟩ := List.forall_mem_cons.1 hskip
    cases hp : p a with
    | false => rw [List.findSome?_cons, ha hp]
    | true =>
      rw [List.filter_cons_of_pos hp, List.findSome?_cons] at h
      rw [List.findSome?_cons]
      cases hf : f a with
      | some c =>
        rw [hf] at h
        exact h
      | none =>
        rw [hf] at h
        exact ih hl h

/-- A child that is written as a single name is a child of the working directory. -/
theorem toString_child (hname : IsBare name)
    (hsingle : '/' ∉ (Path.ofString (below dir name)).toString.toList) (hdir : dir ≠ "") :
    (Path.ofString (below dir name)).toString = name := by
  have hshape := mt (FileTree.slash_mem_toString_iff _).2 hsingle
  obtain ⟨habsolute, hlength⟩ := not_or.1 hshape
  rw [ofString_below hdir hname] at habsolute hlength ⊢
  have hnames : (Path.ofString dir).names = [] := by
    rw [← List.length_eq_zero_iff]
    have hsum : ((Path.ofString dir).child name).names.length =
        (Path.ofString dir).names.length + 1 := by simp [Path.child]
    omega
  have hanchor : (Path.ofString dir).anchor = .relative := by
    simpa [Path.isAbsolute, Path.child] using habsolute
  rw [Path.child, hnames, hanchor]
  simp [Path.toString, Path.anchorText]

/-- A bare name that was found in the working directory itself is found there again by whoever
searches the same text. -/
theorem search_again {searchPath : String} (hname : IsBare name)
    (hdirs : ∀ f ∈ Text.fields listSeparator searchPath, Searchable name f)
    (hfound : lookup t workingDir (ofSearchPath searchPath).directories name = some path)
    (hsingle : '/' ∉ path.toString.toList) :
    path.toString = name ∧
      ((Text.fields listSeparator searchPath).map (below · name)).findSome?
        (program? t workingDir) = program? t workingDir name := by
  obtain ⟨before, f, after, hsplit, hbefore, hprogram, rfl⟩ := lookup_listed hname.1 hfound
  have hlisted : ∀ g ∈ listed searchPath, g ≠ "" ∧ Searchable name g := by
    intro g hg
    obtain ⟨hfield, hne⟩ := List.mem_filter.1 hg
    exact ⟨by simpa using hne, hdirs g hfield⟩
  -- written out again, a directory has the same child
  have hnormal : ∀ g ∈ listed searchPath,
      Path.ofString (below (Path.ofString g).toString name) = Path.ofString (below g name) := by
    intro g hg
    rw [ofString_below (Path.toString_ofString_ne_empty g) hname,
      ofString_below (hlisted g hg).1 hname, FileTree.ofString_toString]
  have hf : f ∈ listed searchPath := hsplit ▸ by simp
  have hnul : '\x00' ∉ name.toList := by
    obtain ⟨hfree, _⟩ := isProgram_iff.1 hprogram
    intro hmem
    refine hfree ?_
    unfold below
    split
    · exact hmem
    · split <;> simp [String.toList_append, hmem]
  have hsame : ∀ g ∈ listed searchPath, ∀ q,
      program? t workingDir (below (Path.ofString g).toString name) = some q ↔
        program? t workingDir (below g name) = some q := by
    intro g hg q
    obtain ⟨hne, hsearchable⟩ := hlisted g hg
    rw [program?_below hname hnul (hsearchable.normal hne), hnormal g hg,
      ← program?_below hname hnul hsearchable]
  have htext : (Path.ofString (below (Path.ofString f).toString name)).toString = name :=
    toString_child hname hsingle (Path.toString_ofString_ne_empty f)
  rw [← isSome_program?] at hprogram
  obtain ⟨q, hq⟩ := Option.isSome_iff_exists.1 hprogram
  have hhere : program? t workingDir name = some q := by
    have hwritten := program?_toString hq
    rwa [htext] at hwritten
  refine ⟨htext, ?_⟩
  rw [hhere, List.findSome?_map]
  apply findSome?_of_filter (p := (· != ""))
  · -- an empty field stands for the working directory
    intro g _ hempty
    have hg : g = "" := by simpa using hempty
    rw [hg]
    exact hhere
  · refine List.findSome?_eq_some_iff.2 ⟨before, f, after, hsplit, (hsame f hf q).1 hq, ?_⟩
    intro g hg
    have hlistedG : g ∈ listed searchPath := hsplit ▸ List.mem_append_left _ hg
    rw [Option.eq_none_iff_forall_ne_some]
    intro q' hq'
    have hother := (hsame g hlistedG q').2 hq'
    have hnone := hbefore g hg
    rw [← isSome_program?, hother] at hnone
    cases hnone

end TriplePass.Resolver
