import TriplePass.Proofs.Resolver.Found

/-! # The directories of a resolver

The directories of a search path are joined by colons and taken apart at the colons again before a
name is looked for. Where no directory has a colon in it, a bare name is found in the first of them
that has a program of that name, and nowhere else. A directory with a colon is never entered, and
its pieces are in its place: so a search path with colons between its directories is the only one
that is always searched as written.
-/
namespace TriplePass

namespace Path
variable {c : Char} {s : String}

/-- What a path is written with, slashes and points apart, stands in its names. -/
theorem mem_toString_iff (hslash : c ≠ '/') (hpoint : c ≠ '.') (p : Path) :
    c ∈ p.toString.toList ↔ ∃ f ∈ p.names, c ∈ f.toList := by
  have hjoin : ∀ names : List String,
      c ∈ ("/".intercalate names).toList ↔ ∃ f ∈ names, c ∈ f.toList := by
    intro names
    induction names with
    | nil => simp
    | cons f rest ih =>
      cases rest with
      | nil => simp
      | cons g rest =>
        rw [String.intercalate_cons_cons, String.toList_append, String.toList_append,
          List.mem_append, List.mem_append, ih]
        simp [hslash]
  have hanchor : c ∉ (anchorText p.anchor).toList := by
    cases p.anchor <;> simp [anchorText, hslash]
  unfold toString
  split
  next hnothing =>
    rw [hnothing.2]
    simp [hpoint]
  next => rw [String.toList_append, List.mem_append, hjoin, or_iff_right hanchor]

theorem hasNul_iff (p : Path) : p.hasNul = true ↔ '\x00' ∈ p.toString.toList := by
  rw [mem_toString_iff (by decide) (by decide), hasNul, List.any_eq_true]
  simp

end Path

namespace Resolver
variable {t : FileTree} {workingDir q : Place} {name s : String} {dirs : List Path} {r : Resolver}

/-! ### Programs of a directory -/

def executes (t : FileTree) (workingDir : Place) (p : Path) : Bool :=
  !p.hasNul &&
  match t.status workingDir p with
  | .ok (.file executable _) => executable
  | _ => false

theorem executes_eq (t : FileTree) (workingDir : Place) (p : Path) :
    executes t workingDir p = isProgram t workingDir p.toString := by
  have hnul : p.hasNul = p.toString.toList.contains '\x00' := by
    rw [Bool.eq_iff_iff, Path.hasNul_iff, List.contains_iff_mem]
  rw [executes, isProgram, hnul]
  congr 1
  unfold FileTree.status FileTree.locate
  cases t.locateText workingDir p.toString with
  | error e => rfl
  | ok place =>
    dsimp only [bind, Except.bind, FileTree.statusAt]
    cases t.entryAt place with
    | none => rfl
    | some entry => cases entry <;> rfl

/-- But for the working directory, a child is written as its name below the directory. -/
theorem toString_below (name : String) (hs : Path.ofString s ≠ ⟨.relative, []⟩) :
    ((Path.ofString s).child name).toString = below (Path.ofString s).toString name := by
  have hne := Path.toString_ofString_ne_empty s
  have hchild : ((Path.ofString s).child name).toString =
      Path.anchorText (Path.ofString s).anchor ++
        "/".intercalate ((Path.ofString s).names ++ [name]) := by
    rw [Path.toString, if_neg (by simp [Path.child])]
    rfl
  rw [hchild, below, if_neg hne]
  by_cases hnames : (Path.ofString s).names = []
  · -- a root ends in a slash of its own
    rw [Path.toString, hnames, List.nil_append, String.intercalate_singleton]
    cases hanchor : (Path.ofString s).anchor with
    | relative =>
      refine absurd ?_ hs
      rw [← hanchor, ← hnames]
    | root => rfl
    | doubleRoot => rfl
  · obtain ⟨front, last, hlast, hjoin⟩ := FileTree.join_last hnames
    obtain ⟨hisName, hslash⟩ := Path.mem_names hlast
    have hend : Text.endsWith (Path.ofString s).toString "/" = false := by
      rw [FileTree.toString_of_names hnames, hjoin, ← String.append_assoc]
      exact FileTree.endsWith_name hslash (Path.isName_ne_empty hisName) _
    rw [hend, if_neg Bool.false_ne_true, FileTree.toString_of_names hnames,
      FileTree.intercalate_concat hnames]
    simp only [String.append_assoc]

theorem program?_size (hname : IsBare name) (h : program? t workingDir name = some q) :
    name.utf8ByteSize ≤ FileTree.maxNameBytes := by
  obtain ⟨_, hl, _⟩ := program?_eq_some_iff.1 h
  by_contra hlong
  have hslash := slash_not_mem hname.1
  have hne := Path.isName_ne_empty hname.2
  have hsteps : FileTree.steps name = [name] := by
    have hall := FileTree.steps_append hslash hne ""
    rwa [String.empty_append, FileTree.textNames_name hslash hne] at hall
  have hplain : FileTree.IsPlain name := by
    refine ⟨hslash, hne, ?_, ?_⟩
    · rintro rfl
      exact hlong (by decide)
    · rintro rfl
      exact hlong (by decide)
  unfold FileTree.locateText at hl
  rw [if_neg hne, hsteps] at hl
  split at hl
  · cases hl
  · change t.walkWith _ _ [name] = _ at hl
    rw [FileTree.walkWith_plain hplain, if_pos (Nat.lt_of_not_le hlong)] at hl
    -- the directory may also be one that must not be searched
    generalize t.denies _ .search = closed at hl
    cases closed <;> cases hl

/-- A name below a directory is a program exactly if the directory's child is. -/
theorem isProgram_below (hname : IsBare name) (s : String) :
    isProgram t workingDir (below (Path.ofString s).toString name) =
      executes t workingDir ((Path.ofString s).child name) := by
  rw [executes_eq]
  by_cases hs : Path.ofString s = ⟨.relative, []⟩
  · rw [hs, show Path.toString ⟨.relative, []⟩ = "." from rfl]
    have hchild : (Path.child ⟨.relative, []⟩ name).toString = name := by
      simp [Path.child, Path.toString, Path.anchorText]
    have hnormal : (Path.ofString (below "." name)).toString = name := by
      rw [ofString_below (by decide) hname]
      exact hchild
    rw [hchild, ← isSome_program?, ← isSome_program?, Bool.eq_iff_iff, Option.isSome_iff_exists,
      Option.isSome_iff_exists]
    refine exists_congr fun q => ?_
    constructor
    · intro h
      have hwritten := program?_toString h
      rwa [hnormal] at hwritten
    · intro h
      have hsize := program?_size hname h
      have hsearchable : Searchable name "." := by
        refine ⟨?_, by decide⟩
        have hpoint : (".").utf8ByteSize = 1 := rfl
        unfold FileTree.maxPathBytes
        unfold FileTree.maxNameBytes at hsize
        omega
      rw [program?_below hname (program?_eq_some_iff.1 h).1 hsearchable, hnormal]
      exact h
  · rw [toString_below name hs]

/-! ### What is really searched -/

def pieces (dirs : List Path) : List String :=
  dirs.flatMap fun p => Text.fields listSeparator p.toString

def firstBelow (t : FileTree) (workingDir : Place) (heads : List String) (name : String) :
    Option Path :=
  (heads.find? fun dir => isProgram t workingDir (below dir name)).map fun dir =>
    Path.ofString (below dir name)

theorem searchText_ne_empty (hne : ∀ p ∈ dirs, p.toString ≠ "") (hdirs : dirs ≠ []) :
    searchText dirs ≠ "" := by
  cases dirs with
  | nil => exact absurd rfl hdirs
  | cons p rest => exact Path.intercalate_ne_empty (hne p List.mem_cons_self) _

theorem lookup_pieces (hne : ∀ p ∈ dirs, p.toString ≠ "") (hname : hasSlash name = false) :
    lookup t workingDir dirs name = firstBelow t workingDir (pieces dirs) name := by
  have hcandidates : candidates dirs name = (pieces dirs).map (below · name) := by
    by_cases hdirs : dirs = []
    · subst hdirs
      rfl
    · have htexts : dirs.map Path.toString ≠ [] := by simpa using hdirs
      rw [candidates, if_neg (searchText_ne_empty hne hdirs), hname, if_neg Bool.false_ne_true,
        searchText, Text.fields_flatMap rfl htexts, List.flatMap_map]
      rfl
  rw [lookup, hcandidates, List.find?_map, Option.map_map]
  rfl

/-- Directories without colons are searched as they are. -/
theorem pieces_eq (h : ∀ p ∈ dirs, ':' ∉ p.toString.toList) :
    pieces dirs = dirs.map Path.toString := by
  have hfields : ∀ p ∈ dirs, Text.fields listSeparator p.toString = [p.toString] := by
    intro p hp
    have hlist : listSeparator.toList = [':'] := rfl
    rw [Text.fields, hlist, Text.fieldsFrom_of_not_mem (h p hp), List.map_singleton,
      String.ofList_toList]
  rw [pieces, List.map_eq_flatMap]
  exact List.flatMap_congr hfields

theorem firstBelow_toString (hname : IsBare name) (texts : List String) :
    firstBelow t workingDir ((texts.map Path.ofString).map Path.toString) name =
      ((texts.map Path.ofString).find? fun p => executes t workingDir (p.child name)).map
        (·.child name) := by
  have hprogram : (fun s => isProgram t workingDir (below (Path.ofString s).toString name)) =
      fun s => executes t workingDir ((Path.ofString s).child name) :=
    funext (isProgram_below hname)
  have hpath : (fun s => Path.ofString (below (Path.ofString s).toString name)) =
      fun s => (Path.ofString s).child name := by
    funext s
    rw [ofString_below (Path.toString_ofString_ne_empty s) hname, FileTree.ofString_toString]
  rw [firstBelow, List.map_map, List.find?_map, List.find?_map, Option.map_map, Option.map_map]
  simp only [Function.comp_def]
  rw [hprogram, hpath]

/-- A bare name is found in the first of the directories that has a program of that name, and
nowhere outside of them. -/
structure Restricted (r : Resolver) : Prop where
  found : ∀ t workingDir name, IsBare name → r.answer t workingDir name =
    (r.directories.find? fun p => executes t workingDir (p.child name)).map (·.child name)
  within : ∀ t workingDir name path, IsBare name → r.answer t workingDir name = some path →
    ∃ p ∈ r.directories, path = p.child name
  /-- So it is for the empty name and the point, which name the directory itself. -/
  written : ∀ t workingDir name, hasSlash name = false → r.answer t workingDir name =
    firstBelow t workingDir (r.directories.map Path.toString) name

variable {separator searchPath : String}

theorem ofSearchPath?_eq_some (h : ofSearchPath? searchPath separator = some r) :
    r = ofFields (Text.fields separator searchPath) := by
  unfold ofSearchPath? at h
  split at h
  · cases h
  · exact (Option.some.inj h).symm

theorem answer_pieces (h : ofSearchPath? searchPath separator = some r)
    (hname : hasSlash name = false) :
    r.answer t workingDir name = firstBelow t workingDir (pieces r.directories) name := by
  rw [ofSearchPath?_eq_some h, answer_of_unknown rfl]
  refine lookup_pieces ?_ hname
  intro p hp
  obtain ⟨f, _, rfl⟩ := List.mem_map.1 hp
  exact Path.toString_ofString_ne_empty f

theorem restricted_of_plain (h : ofSearchPath? searchPath separator = some r)
    (hplain : ∀ p ∈ r.directories, ':' ∉ p.toString.toList) : r.Restricted := by
  have hwritten : ∀ t workingDir name, hasSlash name = false → r.answer t workingDir name =
      firstBelow t workingDir (r.directories.map Path.toString) name := by
    intro t workingDir name hname
    rw [answer_pieces h hname, pieces_eq hplain]
  have hfound : ∀ t workingDir name, IsBare name → r.answer t workingDir name =
      (r.directories.find? fun p => executes t workingDir (p.child name)).map (·.child name) := by
    intro t workingDir name hname
    rw [hwritten t workingDir name hname.1, ofSearchPath?_eq_some h]
    exact firstBelow_toString hname _
  refine ⟨hfound, ?_, hwritten⟩
  intro t workingDir name path hname hpath
  rw [hfound t workingDir name hname] at hpath
  obtain ⟨p, hp, rfl⟩ := Option.map_eq_some_iff.1 hpath
  exact ⟨p, List.mem_of_find?_eq_some hp, rfl⟩

/-! ### Directories with colons -/

theorem ofString_below_any (dir : String) (hname : IsBare name) :
    Path.ofString (below dir name) = (Path.ofString dir).child name := by
  by_cases hdir : dir = ""
  · subst hdir
    have hslash := slash_not_mem hname.1
    have hrelative : (Path.ofString name).anchor = .relative := by
      have habsolute := Path.isAbsolute_ofString name
      rw [FileTree.startsWith_name hslash, Path.isAbsolute] at habsolute
      simpa using habsolute
    calc Path.ofString (below "" name)
        = ⟨(Path.ofString name).anchor, (Path.ofString name).names⟩ := rfl
      _ = (Path.ofString "").child name := by
        rw [hrelative, Path.names_of_name hslash hname.2]
        rfl
  · exact ofString_below hdir hname

theorem colon_not_mem_piece {piece : String} (h : piece ∈ pieces dirs) : ':' ∉ piece.toList := by
  obtain ⟨p, _, hfield⟩ := List.mem_flatMap.1 h
  obtain ⟨chars, hchars, rfl⟩ := List.mem_map.1 hfield
  rw [String.toList_ofList]
  exact Text.not_mem_field hchars

/-- What is found lies in a directory without a colon. -/
theorem colon_not_mem_of_answer (h : ofSearchPath? searchPath separator = some r)
    (hname : IsBare name) {p : Path} (hfound : r.answer t workingDir name = some (p.child name)) :
    ':' ∉ p.toString.toList := by
  rw [answer_pieces h hname.1] at hfound
  obtain ⟨piece, hfind, hpath⟩ := Option.map_eq_some_iff.1 hfound
  have hfree := colon_not_mem_piece (List.mem_of_find?_eq_some hfind)
  rw [ofString_below_any piece hname] at hpath
  obtain ⟨hanchor, hnames⟩ := Path.mk.inj hpath
  have hp : p = Path.ofString piece := by
    cases p
    exact (congrArg₂ Path.mk hanchor (List.append_cancel_right hnames)).symm
  rw [hp]
  by_cases hpiece : piece = ""
  · rw [hpiece]
    decide
  · exact fun hmem => hfree ((Path.toString_sublist hpiece).subset hmem)

theorem fields_colon (hempty : separator ≠ "") (hother : separator ≠ listSeparator) :
    Text.fields separator ":" = [":"] := by
  have hprefix : ¬separator.toList.isPrefixOf [':'] = true := by
    rw [List.isPrefixOf_iff_prefix]
    rintro ⟨rest, hrest⟩
    cases hchars : separator.toList with
    | nil => exact hempty (String.toList_eq_nil_iff.1 hchars)
    | cons c cs =>
      rw [hchars, List.cons_append, List.cons.injEq, List.append_eq_nil_iff] at hrest
      obtain ⟨rfl, rfl, _⟩ := hrest
      exact hother (String.toList_injective hchars)
  have hcolon : (":" : String).toList = [':'] := rfl
  rw [Text.fields, hcolon, Text.fieldsFrom, if_neg hprefix]
  rfl

def colonTree : FileTree where
  entries := [([":"], .directory), ([":", "dmd"], .file true [])]

theorem not_restricted_colon : ¬Restricted (ofFields [":"]) := by
  intro h
  have hfound := h.found colonTree [] "dmd" ⟨by decide, by decide⟩
  revert hfound
  decide

/-- A search path is taken apart at its separator and then at colons. Directories without colons are
searched as they are, and in one with a colon nothing is ever found; a separator restricts all
search paths to their directories if and only if it is the colon. -/
theorem lookup_restricted (hseparator : separator ≠ "") :
    (∀ searchPath, ∃ r, ofSearchPath? searchPath separator = some r ∧
      (∀ t workingDir name, hasSlash name = false → r.answer t workingDir name =
        firstBelow t workingDir (pieces r.directories) name) ∧
      ((∀ p ∈ r.directories, ':' ∉ p.toString.toList) → r.Restricted) ∧
      ∀ t workingDir name (p : Path), IsBare name →
        r.answer t workingDir name = some (p.child name) → ':' ∉ p.toString.toList) ∧
    ((∀ searchPath r, ofSearchPath? searchPath separator = some r → r.Restricted) ↔
      separator = listSeparator) := by
  constructor
  · intro searchPath
    have hr : ofSearchPath? searchPath separator =
        some (ofFields (Text.fields separator searchPath)) := if_neg hseparator
    exact ⟨_, hr, fun _ _ _ => answer_pieces hr, restricted_of_plain hr,
      fun _ _ _ _ hname => colon_not_mem_of_answer hr hname⟩
  · constructor
    · intro hall
      by_contra hother
      have hr : ofSearchPath? ":" separator = some (ofFields [":"]) := by
        rw [ofSearchPath?, if_neg hseparator, fields_colon hseparator hother]
      exact not_restricted_colon (hall ":" _ hr)
    · rintro rfl searchPath r hr
      refine restricted_of_plain hr fun p hp => ?_
      rw [ofSearchPath?_eq_some hr] at hp
      exact separator_not_mem hp

/-- One program where it is looked for, and its namesake in the directory that is meant. -/
def strayTree : FileTree where
  entries :=
    [(["a"], .directory), (["a", "dmd"], .file true []), (["a:b"], .directory),
      (["a:b", "dmd"], .file true [])]

theorem lookup_restricted_semicolon :
    (";" : String) ≠ "" ∧ ∃ r, ofSearchPath? "b;a" ";" = some r ∧
      r.directories = [Path.ofString "b", Path.ofString "a"] ∧ r.Restricted ∧
      r.answer strayTree [] "dmd" = some (Path.ofString "a/dmd") := by
  have hseparator : (";" : String) ≠ "" := by decide
  obtain ⟨r, hr, _, hplain, _⟩ := (lookup_restricted hseparator).1 "b;a"
  have hfields := ofSearchPath?_eq_some hr
  subst hfields
  exact ⟨hseparator, _, hr, by decide, hplain (by decide), by decide⟩

/-- The only directory has the program, but another one is found that lies in none. -/
theorem lookup_strays :
    ∃ r, ofSearchPath? "a:b" ";" = some r ∧ r.directories = [Path.ofString "a:b"] ∧
      executes strayTree [] ((Path.ofString "a:b").child "dmd") = true ∧
      (r.resolve strayTree [] "dmd").1 = some (Path.ofString "a/dmd") := by
  refine ⟨_, if_neg (by decide), ?_⟩
  decide

end Resolver
end TriplePass
