import Mathlib.Data.String.Basic
import TriplePass.Proofs.FileTree

/-! # The normal text of a path

A path forgets the points and the repeated slashes that it was written with. What it is written as
afterwards is shorter and leads to every place that the first text has led to. The way back holds
for texts that end in a name and are not too long.
-/
namespace TriplePass

namespace Path
variable {s : String}

/-- The names of a path, by characters. -/
theorem toList_names (s : String) :
    (ofString s).names.map String.toList =
      (Text.fieldsFrom ['/'] 0 s.toList).filter (isName ∘ String.ofList) := by
  rw [ofString, fields_slash, List.filter_map, List.map_map]
  have hchars : String.toList ∘ String.ofList = id := funext fun l => String.toList_ofList
  rw [hchars, List.map_id]

/-- The names are joined by characters that the text has in this order. -/
theorem names_sublist (l : List Char) :
    (['/'].intercalate ((Text.fieldsFrom ['/'] 0 l).filter (isName ∘ String.ofList))).Sublist l := by
  have hfilter := Text.intercalate_sublist ['/']
    (List.filter_sublist (p := isName ∘ String.ofList) (l := Text.fieldsFrom ['/'] 0 l))
  rw [Text.intercalate_fieldsFrom] at hfilter
  exact hfilter

theorem names_slash (l : List Char) :
    (Text.fieldsFrom ['/'] 0 ('/' :: l)).filter (isName ∘ String.ofList) =
      (Text.fieldsFrom ['/'] 0 l).filter (isName ∘ String.ofList) := by
  have hempty : (isName ∘ String.ofList) [] = false := by decide
  rw [Text.fieldsFrom_cons_separator, List.filter_cons_of_neg (Bool.eq_false_iff.1 hempty)]

/-- Behind the slashes of its anchor a text has the same names. -/
theorem anchor_append (l : List Char) :
    ∃ rest, l = (anchorText (anchorOf l)).toList ++ rest ∧
      (Text.fieldsFrom ['/'] 0 l).filter (isName ∘ String.ofList) =
        (Text.fieldsFrom ['/'] 0 rest).filter (isName ∘ String.ofList) := by
  unfold anchorOf
  split
  next rest => exact ⟨'/' :: '/' :: rest, rfl, names_slash _⟩
  next rest _ => exact ⟨rest, rfl, (names_slash _).trans (names_slash _)⟩
  next rest _ _ => exact ⟨rest, rfl, names_slash _⟩
  next => exact ⟨l, rfl, rfl⟩

/-- Only slashes that follow slashes can change the anchor of a text. -/
theorem anchorOf_append {l m : List Char} (hl : l ≠ [])
    (h : l.getLast? ≠ some '/' ∨ m.head? ≠ some '/') : anchorOf (l ++ m) = anchorOf l := by
  have hfirst : ∀ (a : Char) (rest : List Char), a ≠ '/' → anchorOf (a :: rest) = .relative := by
    intro a rest ha
    unfold anchorOf
    split <;> simp_all
  have hsecond : ∀ (b : Char) (rest : List Char), b ≠ '/' → anchorOf ('/' :: b :: rest) = .root := by
    intro b rest hb
    unfold anchorOf
    split <;> simp_all
  have hthird : ∀ (c : Char) (rest : List Char), c ≠ '/' →
      anchorOf ('/' :: '/' :: c :: rest) = .doubleRoot := by
    intro c rest hc
    rw [anchorOf]
    intro tail htail
    exact hc (List.cons.inj htail).1
  rcases l with _ | ⟨a, l⟩
  · exact absurd rfl hl
  by_cases ha : a = '/'
  case neg => rw [List.cons_append, hfirst a _ ha, hfirst a _ ha]
  subst ha
  rcases l with _ | ⟨b, l⟩
  · cases m with
    | nil => rfl
    | cons b m =>
      have hb : b ≠ '/' := by simpa using h
      exact hsecond b m hb
  by_cases hb : b = '/'
  case neg => rw [List.cons_append, List.cons_append, hsecond b _ hb, hsecond b _ hb]
  subst hb
  rcases l with _ | ⟨c, l⟩
  · cases m with
    | nil => rfl
    | cons c m =>
      have hc : c ≠ '/' := by simpa using h
      exact hthird c m hc
  by_cases hc : c = '/'
  · subst hc
    rfl
  · rw [List.cons_append, List.cons_append, List.cons_append, hthird c _ hc, hthird c _ hc]

theorem isAbsolute_ofString (s : String) :
    (ofString s).isAbsolute = Text.startsWith s "/" := by
  have hslash : ("/" : String).toList = ['/'] := rfl
  rw [isAbsolute, ofString, Text.startsWith, hslash]
  unfold anchorOf
  split
  next h => rw [h]; rfl
  next h => rw [h]; rfl
  next h => rw [h]; rfl
  next hno =>
    cases hchars : s.toList with
    | nil => rfl
    | cons a rest =>
      have ha : a ≠ '/' := fun ha => hno rest (ha ▸ hchars)
      simp [List.isPrefixOf, Ne.symm ha]

theorem toList_join (names : List String) :
    ("/".intercalate names).toList = ['/'].intercalate (names.map String.toList) :=
  String.toList_intercalate

/-- A text that names nothing but the place where it starts begins with a point. -/
theorem point_first (hs : s ≠ "") (hanchor : (ofString s).anchor = .relative)
    (hnames : (ofString s).names = []) : '.' ∈ s.toList ∧ "." ∈ Text.fields "/" s := by
  rw [fields_slash]
  cases hchars : s.toList with
  | nil => exact absurd (String.toList_eq_nil_iff.1 hchars) hs
  | cons a rest =>
    have ha : a ≠ '/' := by
      rintro rfl
      have hstarts : Text.startsWith s "/" = true := by
        rw [Text.startsWith, hchars]
        exact List.isPrefixOf_iff_prefix.2 ⟨rest, rfl⟩
      rw [← isAbsolute_ofString, isAbsolute, hanchor] at hstarts
      cases hstarts
    have hnone := congrArg (List.map String.toList) hnames
    rw [toList_names, hchars, Text.fieldsFrom_cons ha] at hnone
    rw [Text.fieldsFrom_cons ha]
    cases hfields : Text.fieldsFrom ['/'] 0 rest with
    | nil => exact absurd hfields (Text.fieldsFrom_ne_nil '/' rest)
    | cons f fs =>
      rw [hfields, Text.extendFirst] at hnone
      have hfirst := List.filter_eq_nil_iff.1 hnone _ List.mem_cons_self
      have hpoint : String.ofList (a :: f) = "." := by
        simpa [isName, String.ofList_eq_empty_iff] using hfirst
      have hlist := congrArg String.toList hpoint
      rw [String.toList_ofList] at hlist
      cases hlist
      exact ⟨List.mem_cons_self, List.mem_cons_self⟩

theorem toString_sublist (hs : s ≠ "") : (ofString s).toString.toList.Sublist s.toList := by
  unfold toString
  split
  next hnothing =>
    exact List.singleton_sublist.2 (point_first hs hnothing.1 hnothing.2).1
  next =>
    obtain ⟨rest, hchars, hnames⟩ := anchor_append s.toList
    have hjoined : ("/".intercalate (ofString s).names).toList.Sublist rest := by
      rw [toList_join, toList_names, hnames]
      exact names_sublist rest
    rw [String.toList_append, hchars]
    exact (List.Sublist.refl _).append hjoined

theorem toString_size (hs : s ≠ "") : (ofString s).toString.utf8ByteSize ≤ s.utf8ByteSize := by
  have hlen := String.utf8Len_le_of_sublist (toString_sublist hs)
  rwa [← String.utf8ByteSize_ofList, ← String.utf8ByteSize_ofList, String.ofList_toList,
    String.ofList_toList] at hlen

theorem isName_ne_empty {f : String} (h : isName f = true) : f ≠ "" := by
  rintro rfl
  cases h

end Path

namespace FileTree
variable {t : FileTree} {workingDir q : Place} {s : String}

/-! ### Walks without points -/

/-- The same steps with some of the idle ones left out. -/
inductive Pointless : List String → List String → Prop where
  | nil : Pointless [] []
  | keep (name : String) {l m : List String} : Pointless l m → Pointless (name :: l) (name :: m)
  | skip {name : String} {l m : List String} : Path.isName name = false → Pointless l m →
      Pointless (name :: l) m

namespace Pointless
variable {l m : List String}

theorem append (front : List String) (h : Pointless l m) : Pointless (front ++ l) (front ++ m) := by
  induction front with
  | nil => exact h
  | cons name rest ih => exact .keep name ih

theorem filter (l : List String) : Pointless l (l.filter Path.isName) := by
  induction l with
  | nil => exact .nil
  | cons name rest ih =>
    by_cases hname : Path.isName name = true
    · rw [List.filter_cons_of_pos hname]
      exact .keep name ih
    · rw [List.filter_cons_of_neg hname]
      exact .skip (Bool.eq_false_iff.2 hname) ih

theorem of_idle (hl : Idle l) : Pointless l [] := by
  have hfilter : l.filter Path.isName = [] :=
    List.filter_eq_nil_iff.2 fun name hname => Bool.eq_false_iff.1 (hl name hname)
  exact hfilter ▸ filter l

/-- One point may stay. -/
theorem point (hl : Idle l) (hpoint : "." ∈ l) : Pointless l ["."] := by
  induction l with
  | nil => exact absurd hpoint List.not_mem_nil
  | cons name rest ih =>
    have hrest : Idle rest := fun name hname => hl name (List.mem_cons_of_mem _ hname)
    rcases List.mem_cons.1 hpoint with rfl | hpoint
    · exact .keep "." (of_idle hrest)
    · exact .skip (hl name List.mem_cons_self) (ih hrest hpoint)

theorem eq_nil (h : Pointless [] m) : m = [] := by
  cases h
  rfl

theorem mem (h : Pointless l m) {name : String} (hname : Path.isName name = true)
    (hl : name ∈ l) : name ∈ m := by
  induction h with
  | nil => exact hl
  | keep first _ ih =>
    rcases List.mem_cons.1 hl with rfl | hl
    · exact List.mem_cons_self
    · exact List.mem_cons_of_mem _ (ih hl)
  | skip hidle _ ih =>
    rcases List.mem_cons.1 hl with rfl | hl
    · cases hname.symm.trans hidle
    · exact ih hl

end Pointless

def EndsInName (l : List String) : Prop :=
  ∀ name ∈ l.getLast?, Path.isName name = true

theorem EndsInName.tail {name second : String} {rest : List String}
    (h : EndsInName (name :: second :: rest)) : EndsInName (second :: rest) := by
  rwa [EndsInName, List.getLast?_cons_cons] at h

/-- Steps that end in a name keep it. -/
theorem Pointless.exists_name {l m : List String} (h : Pointless l m) (hend : EndsInName l)
    (hl : l ≠ []) : ∃ name ∈ m, Path.isName name = true := by
  have hlast := hend _ (List.getLast?_eq_getLast_of_ne_nil hl)
  exact ⟨_, h.mem hlast (List.getLast_mem hl), hlast⟩

/-- Leaving points out keeps what a walk finds. -/
theorem walkWith_pointless {follow : Place → List String → Except Errno Place}
    (hfollow : ∀ dir l m, Pointless l m → follow dir l = .ok q → follow dir m = .ok q)
    {dir : Place} {l m : List String} (h : Pointless l m)
    (hwalk : t.walkWith follow dir l = .ok q) : t.walkWith follow dir m = .ok q := by
  induction h generalizing dir with
  | nil => exact hwalk
  | skip hidle _ ih => exact ih (walkWith_of_idle hidle hwalk).1
  | @keep name l m h ih =>
    cases t.walkWith_step follow dir name with
    | onward place hgo =>
      rw [hgo] at hwalk ⊢
      exact ih hwalk
    | refused e hgo =>
      rw [hgo] at hwalk
      cases hwalk
    | link place names hgo =>
      rw [hgo] at hwalk ⊢
      exact hfollow _ _ _ (h.append names) hwalk
    | file executable content _ hgo =>
      rw [hgo] at hwalk ⊢
      cases l with
      | nil =>
        rw [h.eq_nil]
        exact hwalk
      | cons => cases hwalk

theorem walk_pointless {links : Nat} {dir : Place} {l m : List String} (h : Pointless l m)
    (hwalk : t.walk links dir l = .ok q) : t.walk links dir m = .ok q := by
  induction links generalizing dir l m with
  | zero =>
    refine walkWith_pointless (fun _ _ _ _ hfollow => ?_) h hwalk
    cases hfollow
  | succ links ih =>
    refine walkWith_pointless (fun _ _ _ hlm hfollow => ?_) h hwalk
    exact ih hlm hfollow

/-- A walk to a name goes through the directory in which it starts. -/
theorem searchable_of_walkWith {follow : Place → List String → Except Errno Place} {dir : Place}
    {m : List String} (hname : ∃ name ∈ m, Path.isName name = true)
    (hwalk : t.walkWith follow dir m = .ok q) : t.denies dir .search = false := by
  induction m with
  | nil =>
    obtain ⟨name, hmem, -⟩ := hname
    exact absurd hmem List.not_mem_nil
  | cons first rest ih =>
    by_cases hempty : first = ""
    · subst hempty
      obtain ⟨name, hmem, hname⟩ := hname
      rcases List.mem_cons.1 hmem with rfl | hmem
      · cases hname
      · exact ih ⟨name, hmem, hname⟩ (walkWith_of_idle rfl hwalk).1
    · rw [walkWith, if_neg hempty] at hwalk
      split at hwalk
      · cases hwalk
      next hsearch => exact Bool.eq_false_iff.2 hsearch

/-- Putting points in keeps it as well, as long as the end stays what it is. -/
theorem walkWith_pointed {follow : Place → List String → Except Errno Place}
    (hfollow : ∀ dir l m, Pointless l m → (l = m ∨ EndsInName l) →
      follow dir m = .ok q → follow dir l = .ok q)
    {dir : Place} {l m : List String} (h : Pointless l m) (hend : l = m ∨ EndsInName l)
    (hwalk : t.walkWith follow dir m = .ok q) : t.walkWith follow dir l = .ok q := by
  rcases hend with rfl | hend
  · exact hwalk
  induction h generalizing dir with
  | nil => exact hwalk
  | @skip name l m hidle h ih =>
    cases hl : l with
    | nil =>
      subst hl
      cases hidle.symm.trans (hend name rfl)
    | cons second rest =>
      have hrest : EndsInName l := hl ▸ (hl ▸ hend : EndsInName (name :: second :: rest)).tail
      rw [← hl]
      have hsearch := searchable_of_walkWith (h.exists_name hrest (hl ▸ List.cons_ne_nil _ _)) hwalk
      rcases eq_of_isName_false hidle with rfl | rfl
      · rw [walkWith, if_pos rfl]
        exact ih hwalk hrest
      · rw [walkWith, if_neg (by decide), hsearch, if_neg Bool.false_ne_true, if_pos rfl]
        exact ih hwalk hrest
  | @keep name l m h ih =>
    cases hl : l with
    | nil =>
      subst hl
      rw [h.eq_nil] at hwalk
      exact hwalk
    | cons second rest =>
      have hrest : EndsInName l := hl ▸ (hl ▸ hend : EndsInName (name :: second :: rest)).tail
      have hne : l ≠ [] := hl ▸ List.cons_ne_nil _ _
      rw [← hl]
      cases t.walkWith_step follow dir name with
      | onward place hgo =>
        rw [hgo] at hwalk ⊢
        exact ih hwalk hrest
      | refused e hgo =>
        rw [hgo] at hwalk
        cases hwalk
      | link place names hgo =>
        rw [hgo] at hwalk ⊢
        refine hfollow _ _ _ (h.append names) (.inr ?_) hwalk
        rw [EndsInName, List.getLast?_append_of_ne_nil names hne]
        exact hrest
      | file executable content _ hgo =>
        obtain ⟨last, hlast, -⟩ := h.exists_name hrest hne
        rw [hgo, if_neg (by simpa using List.ne_nil_of_mem hlast)] at hwalk
        cases hwalk

theorem walk_pointed {links : Nat} {dir : Place} {l m : List String} (h : Pointless l m)
    (hend : l = m ∨ EndsInName l) (hwalk : t.walk links dir m = .ok q) :
    t.walk links dir l = .ok q := by
  induction links generalizing dir l m with
  | zero =>
    refine walkWith_pointed (fun _ _ _ _ _ hfollow => ?_) h hend hwalk
    cases hfollow
  | succ links ih =>
    refine walkWith_pointed (fun _ _ _ hlm hend hfollow => ?_) h hend hwalk
    exact ih hlm hend hfollow

/-! ### The steps of the normal text -/

theorem textNames_filter (s : String) :
    (textNames s).filter Path.isName = (Path.ofString s).names := by
  rw [textNames, List.filter_filter, Path.ofString]
  refine List.filter_congr fun f _ => ?_
  cases hname : Path.isName f with
  | false => rfl
  | true => simpa using Path.isName_ne_empty hname

theorem steps_filter (s : String) : (steps s).filter Path.isName = (Path.ofString s).names := by
  obtain ⟨idle, hidle, hsteps⟩ := steps_eq s
  have hnone : idle.filter Path.isName = [] :=
    List.filter_eq_nil_iff.2 fun name hname => Bool.eq_false_iff.1 (hidle name hname)
  rw [hsteps, List.filter_append, hnone, List.append_nil, textNames_filter]

theorem textNames_anchor (anchor : Anchor) (s : String) :
    textNames (Path.anchorText anchor ++ s) = textNames s := by
  have hslash : ∀ s : String, textNames ("/" ++ s) = textNames s := by
    intro s
    have hchars : ("/" ++ s).toList = '/' :: s.toList := by simp [String.toList_append]
    rw [textNames, textNames, Path.fields_slash, Path.fields_slash, hchars,
      Text.fieldsFrom_cons_separator, List.map_cons, List.filter_cons_of_neg (by simp)]
  cases anchor with
  | relative => rw [Path.anchorText, String.empty_append]
  | root => exact hslash s
  | doubleRoot =>
    have htwice : Path.anchorText .doubleRoot ++ s = "/" ++ ("/" ++ s) := by
      rw [← String.append_assoc]
      rfl
    rw [htwice, hslash, hslash]

theorem textNames_join {names : List String} (hnames : names ≠ [])
    (h : ∀ f ∈ names, Path.isName f = true ∧ '/' ∉ f.toList) :
    textNames ("/".intercalate names) = names := by
  have hfields : Text.fields "/" ("/".intercalate names) = names :=
    Text.fields_intercalate rfl hnames fun f hf => (h f hf).2
  rw [textNames, hfields, List.filter_eq_self]
  intro f hf
  simpa using Path.isName_ne_empty (h f hf).1

theorem join_last {names : List String} (hnames : names ≠ []) :
    ∃ front, ∃ last ∈ names, "/".intercalate names = front ++ last := by
  rcases List.eq_nil_or_concat names with hnil | ⟨init, last, rfl⟩
  · exact absurd hnil hnames
  · rw [List.concat_eq_append]
    have hmem : last ∈ init ++ [last] := by simp
    by_cases hinit : init = []
    · exact ⟨"", last, hmem, by simp [hinit]⟩
    · exact ⟨"/".intercalate init ++ "/", last, hmem, intercalate_concat hinit last⟩

theorem startsWith_join {names : List String} (hnames : names ≠ [])
    (h : ∀ f ∈ names, Path.isName f = true ∧ '/' ∉ f.toList) :
    Text.startsWith ("/".intercalate names) "/" = false := by
  cases names with
  | nil => exact absurd rfl hnames
  | cons f rest =>
    obtain ⟨hname, hslash⟩ := h f List.mem_cons_self
    cases rest with
    | nil =>
      rw [String.intercalate_singleton]
      exact startsWith_name hslash
    | cons g rest =>
      rw [String.intercalate_cons_cons, String.append_assoc,
        startsWith_append (Path.isName_ne_empty hname)]
      exact startsWith_name hslash

theorem toString_of_names (hnames : (Path.ofString s).names ≠ []) :
    (Path.ofString s).toString =
      Path.anchorText (Path.ofString s).anchor ++ "/".intercalate (Path.ofString s).names := by
  rw [Path.toString, if_neg fun hnothing => hnames hnothing.2]

theorem startsWith_toString (s : String) :
    Text.startsWith (Path.ofString s).toString "/" = Text.startsWith s "/" := by
  rw [← Path.isAbsolute_ofString s]
  by_cases hnames : (Path.ofString s).names = []
  · rw [Path.toString, Path.isAbsolute, hnames]
    cases (Path.ofString s).anchor <;> decide
  · rw [toString_of_names hnames, Path.isAbsolute]
    cases (Path.ofString s).anchor with
    | relative =>
      rw [Path.anchorText, String.empty_append]
      exact startsWith_join hnames fun f => Path.mem_names
    | root | doubleRoot => exact startsWith_append (by decide) _

/-- The normal text is read as the names of the path; one without names is read as a point, or as
the slash at its end. -/
theorem steps_toString (s : String) :
    steps (Path.ofString s).toString =
      if (Path.ofString s).names = [] then [if (Path.ofString s).isAbsolute then "" else "."]
      else (Path.ofString s).names := by
  by_cases hnames : (Path.ofString s).names = []
  · rw [if_pos hnames, Path.toString, Path.isAbsolute, hnames]
    cases (Path.ofString s).anchor <;> decide
  · obtain ⟨front, last, hlast, hjoin⟩ := join_last hnames
    obtain ⟨hname, hslash⟩ := Path.mem_names hlast
    have hend : Text.endsWith (Path.ofString s).toString "/" = false := by
      rw [toString_of_names hnames, hjoin, ← String.append_assoc]
      exact endsWith_name hslash (Path.isName_ne_empty hname) _
    have hsteps : steps (Path.ofString s).toString = textNames (Path.ofString s).toString := by
      rw [steps, if_neg (Bool.eq_false_iff.1 hend)]
      rfl
    rw [if_neg hnames, hsteps, toString_of_names hnames, textNames_anchor,
      textNames_join hnames fun f => Path.mem_names]

/-- A path is written with a slash unless it is a single name. -/
theorem slash_mem_toString_iff (s : String) :
    '/' ∈ (Path.ofString s).toString.toList ↔
      (Path.ofString s).isAbsolute = true ∨ 2 ≤ (Path.ofString s).names.length := by
  have hslashes : ∀ f ∈ (Path.ofString s).names, '/' ∉ f.toList := fun f hf =>
    (Path.mem_names hf).2
  rw [Path.toString, Path.isAbsolute]
  cases (Path.ofString s).anchor with
  | root | doubleRoot => simp [Path.anchorText]
  | relative =>
    cases hnames : (Path.ofString s).names with
    | nil => decide
    | cons f rest =>
      cases rest with
      | nil =>
        have hf := hslashes f (hnames ▸ List.mem_cons_self)
        simpa [Path.anchorText] using hf
      | cons g rest => simp [Path.anchorText, String.intercalate_cons_cons]

theorem anchor_toString (s : String) :
    (Path.ofString (Path.ofString s).toString).anchor = (Path.ofString s).anchor := by
  have habsolute : (Path.ofString (Path.ofString s).toString).isAbsolute =
      (Path.ofString s).isAbsolute := by
    rw [Path.isAbsolute_ofString, startsWith_toString, ← Path.isAbsolute_ofString s]
  cases hanchor : (Path.ofString s).anchor with
  | relative =>
    rw [Path.isAbsolute, Path.isAbsolute, hanchor] at habsolute
    simpa using habsolute
  | root | doubleRoot =>
    by_cases hnames : (Path.ofString s).names = []
    · rw [Path.toString, hanchor, hnames]
      decide
    · have hjoin := startsWith_join hnames fun f => Path.mem_names
      have hhead : ("/".intercalate (Path.ofString s).names).toList.head? ≠ some '/' := by
        intro hslash
        obtain ⟨rest, hrest⟩ := List.head?_eq_some_iff.1 hslash
        rw [Text.startsWith, hrest] at hjoin
        cases hjoin
      rw [toString_of_names hnames, hanchor, Path.ofString, String.toList_append,
        Path.anchorOf_append (by decide) (.inr hhead)]
      rfl

/-- A normal text is written for the path that it is the text of. -/
theorem ofString_toString (s : String) :
    Path.ofString (Path.ofString s).toString = Path.ofString s := by
  have hnames : (Path.ofString (Path.ofString s).toString).names = (Path.ofString s).names := by
    rw [← steps_filter, steps_toString]
    split
    next hempty =>
      rw [hempty]
      cases (Path.ofString s).isAbsolute <;> rfl
    next =>
      rw [List.filter_eq_self]
      exact fun f hf => (Path.mem_names hf).1
  calc Path.ofString (Path.ofString s).toString
      = ⟨(Path.ofString (Path.ofString s).toString).anchor,
          (Path.ofString (Path.ofString s).toString).names⟩ := rfl
    _ = Path.ofString s := by rw [anchor_toString, hnames]

theorem point_mem_steps (hs : s ≠ "") (hanchor : (Path.ofString s).anchor = .relative)
    (hnames : (Path.ofString s).names = []) : "." ∈ steps s := by
  obtain ⟨idle, -, hsteps⟩ := steps_eq s
  have hfield := (Path.point_first hs hanchor hnames).2
  rw [hsteps, textNames]
  exact List.mem_append_left _ (List.mem_filter.2 ⟨hfield, by decide⟩)

theorem walk_toString {links : Nat} {dir : Place} (hs : s ≠ "")
    (hwalk : t.walk links dir (steps s) = .ok q) :
    t.walk links dir (steps (Path.ofString s).toString) = .ok q := by
  rw [steps_toString]
  by_cases hnames : (Path.ofString s).names = []
  · have hidle : Idle (steps s) := by
      have hfilter := steps_filter s
      rw [hnames, List.filter_eq_nil_iff] at hfilter
      exact fun name hname => Bool.eq_false_iff.2 (hfilter name hname)
    rw [if_pos hnames]
    cases habsolute : (Path.ofString s).isAbsolute with
    | true =>
      have hstart := walk_pointless (.of_idle hidle) hwalk
      cases links <;> exact hstart
    | false =>
      rw [Path.isAbsolute] at habsolute
      exact walk_pointless (.point hidle (point_mem_steps hs (by simpa using habsolute) hnames)) hwalk
  · rw [if_neg hnames, ← steps_filter]
    exact walk_pointless (.filter _) hwalk

theorem fits_toString (hs : s ≠ "") (hfits : ¬maxPathBytes ≤ s.utf8ByteSize) :
    ¬maxPathBytes ≤ (Path.ofString s).toString.utf8ByteSize := by
  have hsize := Path.toString_size hs
  omega

/-- The normal text of a path leads to all places that the path was written for. -/
theorem locateText_toString (h : t.locateText workingDir s = .ok q) :
    t.locateText workingDir (Path.ofString s).toString = .ok q := by
  unfold locateText at h ⊢
  split at h
  · cases h
  next hs =>
  split at h
  · cases h
  next hfits =>
  rw [if_neg (Path.toString_ofString_ne_empty s), if_neg (fits_toString hs hfits),
    startsWith_toString]
  exact walk_toString hs h

/-- A text that ends in a name, and is not too long, leads where its normal text leads. -/
theorem locateText_of_toString {last : String} (hfits : ¬maxPathBytes ≤ s.utf8ByteSize)
    (hlast : (steps s).getLast? = some last) (hname : Path.isName last = true)
    (h : t.locateText workingDir (Path.ofString s).toString = .ok q) :
    t.locateText workingDir s = .ok q := by
  have hs : s ≠ "" := by
    rintro rfl
    cases hlast
  have hend : EndsInName (steps s) := by
    intro name hmem
    cases hlast.symm.trans hmem
    exact hname
  have hnames : (Path.ofString s).names ≠ [] := by
    rw [← steps_filter]
    exact List.ne_nil_of_mem (List.mem_filter.2 ⟨List.mem_of_getLast? hlast, hname⟩)
  unfold locateText at h ⊢
  rw [if_neg (Path.toString_ofString_ne_empty s), if_neg (fits_toString hs hfits),
    startsWith_toString, steps_toString, if_neg hnames, ← steps_filter] at h
  rw [if_neg hs, if_neg hfits]
  exact walk_pointed (.filter _) (.inr hend) h

end FileTree
end TriplePass
