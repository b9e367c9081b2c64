import TriplePass.FileTree
import TriplePass.Proofs.Path
import TriplePass.Proofs.Text.Utf8

/-! # Walking a file tree

A walk ends in an error that means no more than that nothing is there, unless a name on the way or
the whole path is too long, or a directory on the way must not be searched: these are the errors
which asking for a file passes on. A file that is found in a directory has an entry of its own
there, so its removal makes the tree smaller.
-/
namespace TriplePass

/-- An error that leaves open whether something is there. -/
def Errno.Unanswered (e : Errno) : Prop :=
  e = .nameTooLong ∨ e = .denied

namespace FileTree
variable {t u : FileTree} {workingDir : Place} {e : Errno}

/-! ### Errors of a walk -/

def Unfound (e : Errno) : Prop :=
  e.meansAbsent = true ∨ e.Unanswered

theorem walkWith_error {follow : Place → List String → Except Errno Place}
    (hfollow : ∀ dir names e, follow dir names = .error e → Unfound e) {dir : Place}
    {names : List String} (h : t.walkWith follow dir names = .error e) : Unfound e := by
  induction names generalizing dir with
  | nil => cases h
  | cons name rest ih =>
    unfold walkWith at h
    split at h
    · exact ih h
    split at h
    · cases h
      exact .inr (.inr rfl)
    split at h
    · exact ih h
    split at h
    · exact ih h
    split at h
    · cases h
      exact .inr (.inl rfl)
    split at h
    · cases h
      exact .inl rfl
    · exact ih h
    · split at h <;> cases h
      exact .inl rfl
    · exact hfollow _ _ e h

theorem walk_error {links : Nat} {dir : Place} {names : List String}
    (h : t.walk links dir names = .error e) : Unfound e := by
  induction links generalizing dir names e with
  | zero =>
    refine walkWith_error (fun _ _ _ hfollow => ?_) h
    cases hfollow
    exact .inl rfl
  | succ links ih => exact walkWith_error (fun _ _ _ hfollow => ih hfollow) h

theorem locateText_error {s : String} (h : t.locateText workingDir s = .error e) :
    Unfound e := by
  unfold locateText at h
  split at h
  · cases h
    exact .inl rfl
  split at h
  · cases h
    exact .inr (.inl rfl)
  · exact walk_error h

theorem status_error {p : Path} (h : t.status workingDir p = .error e) : Unfound e := by
  unfold status at h
  cases hl : t.locate workingDir p with
  | error e' =>
    rw [hl] at h
    cases h
    exact locateText_error hl
  | ok place =>
    rw [hl] at h
    change t.statusAt place = .error e at h
    unfold statusAt at h
    split at h
    · cases h
    · cases h
      exact .inl rfl

theorem asks_error {answer : Entry → Bool} {result : Except Errno Entry}
    (hresult : ∀ e, result = .error e → Unfound e) (h : asks answer result = .error e) :
    e.Unanswered := by
  cases result with
  | ok entry => cases h
  | error e' =>
    by_cases habsent : e'.meansAbsent = true
    · rw [asks, if_pos habsent] at h
      cases h
    · rw [asks, if_neg habsent] at h
      cases h
      exact (hresult _ rfl).resolve_left habsent

theorem isFile_error {p : Path} (h : t.isFile workingDir p = .error e) : e.Unanswered := by
  unfold isFile at h
  split at h
  · cases h
  · exact asks_error (fun _ => status_error) h

theorem isDirectory_error {p : Path} (h : t.isDirectory workingDir p = .error e) :
    e.Unanswered := by
  unfold isDirectory at h
  split at h
  · cases h
  · exact asks_error (fun _ => status_error) h

/-! ### Going on behind a walk -/

/-- How a walk through some names goes on: from the place that they lead to, not at all behind a
file, or with the error that they end in. -/
inductive Walked (t : FileTree) (go : List String → Except Errno Place) (names : List String) :
    Prop where
  | entered (place : Place) (follow : Place → List String → Except Errno Place) :
      (∀ more, go (names ++ more) = t.walkWith follow place more) → Walked t go names
  | file (place : Place) (executable : Bool) (content : Bytes) :
      t.entryAt place = some (.file executable content) → go names = .ok place →
      (∀ more, more ≠ [] → go (names ++ more) = .error .notDirectory) → Walked t go names
  | refused (e : Errno) : (∀ more, go (names ++ more) = .error e) → Walked t go names

theorem Walked.congr {go go' : List String → Except Errno Place} {names names' : List String}
    (h : t.Walked go names) (heq : ∀ more, go' (names' ++ more) = go (names ++ more)) :
    t.Walked go' names' := by
  cases h with
  | entered place follow hmore => exact .entered place follow fun more => by rw [heq, hmore]
  | file place executable content hentry hgo hmore =>
    have hgo' := heq []
    rw [List.append_nil, List.append_nil] at hgo'
    exact .file place executable content hentry (hgo'.trans hgo) fun more hne => by
      rw [heq, hmore more hne]
  | refused e hmore => exact .refused e fun more => by rw [heq, hmore]

inductive Step (t : FileTree) (follow : Place → List String → Except Errno Place) (dir : Place)
    (name : String) : Prop where
  | onward (place : Place) :
      (∀ rest, t.walkWith follow dir (name :: rest) = t.walkWith follow place rest) →
      Step t follow dir name
  | file (executable : Bool) (content : Bytes) :
      t.entryAt (dir ++ [name]) = some (.file executable content) →
      (∀ rest, t.walkWith follow dir (name :: rest) =
        if rest.isEmpty then .ok (dir ++ [name]) else .error .notDirectory) →
      Step t follow dir name
  | link (place : Place) (names : List String) :
      (∀ rest, t.walkWith follow dir (name :: rest) = follow place (names ++ rest)) →
      Step t follow dir name
  | refused (e : Errno) :
      (∀ rest, t.walkWith follow dir (name :: rest) = .error e) → Step t follow dir name

/-- What a walk finds under a name that it asks for. -/
theorem walkWith_entry {dir : Place} {name : String} (hempty : name ≠ "")
    (hsearch : ¬t.denies dir .search = true) (hdot : name ≠ ".") (hup : name ≠ "..")
    (hlong : ¬maxNameBytes < name.utf8ByteSize)
    (follow : Place → List String → Except Errno Place) (rest : List String) :
    t.walkWith follow dir (name :: rest) =
      match t.entryAt (dir ++ [name]) with
      | none => .error .absent
      | some .directory => t.walkWith follow (dir ++ [name]) rest
      | some (.file ..) => if rest.isEmpty then .ok (dir ++ [name]) else .error .notDirectory
      | some (.link target) =>
        follow (if Text.startsWith target "/" then [] else dir) (steps target ++ rest) := by
  have hasked := walkWith.eq_2 t follow dir name rest
  rw [if_neg hempty, if_neg hsearch, if_neg hdot, if_neg hup, if_neg hlong] at hasked
  refine hasked.trans ?_
  cases t.entryAt (dir ++ [name]) with
  | none => rfl
  | some entry => cases entry <;> rfl

theorem walkWith_step (t : FileTree) (follow : Place → List String → Except Errno Place)
    (dir : Place) (name : String) : t.Step follow dir name := by
  by_cases hempty : name = ""
  · exact .onward dir fun rest => by rw [walkWith, if_pos hempty]
  by_cases hsearch : t.denies dir .search = true
  · exact .refused .denied fun rest => by rw [walkWith, if_neg hempty, if_pos hsearch]
  by_cases hdot : name = "."
  · exact .onward dir fun rest => by
      rw [walkWith, if_neg hempty, if_neg hsearch, if_pos hdot]
  by_cases hup : name = ".."
  · exact .onward dir.dropLast fun rest => by
      rw [walkWith, if_neg hempty, if_neg hsearch, if_neg hdot, if_pos hup]
  by_cases hlong : maxNameBytes < name.utf8ByteSize
  · exact .refused .nameTooLong fun rest => by
      rw [walkWith, if_neg hempty, if_neg hsearch, if_neg hdot, if_neg hup, if_pos hlong]
  have hentry := walkWith_entry hempty hsearch hdot hup hlong follow
  cases he : t.entryAt (dir ++ [name]) with
  | none => exact .refused .absent fun rest => by rw [hentry, he]
  | some entry =>
    cases entry with
    | directory => exact .onward (dir ++ [name]) fun rest => by rw [hentry, he]
    | file executable content =>
      exact .file executable content he fun rest => by rw [hentry, he]
    | link target => exact .link _ (steps target) fun rest => by rw [hentry, he]

theorem walkWith_walked {follow : Place → List String → Except Errno Place}
    (hfollow : ∀ dir names, t.Walked (follow dir) names) (dir : Place) (names : List String) :
    t.Walked (t.walkWith follow dir) names := by
  induction names generalizing dir with
  | nil => exact .entered dir follow fun _ => rfl
  | cons first rest ih =>
    cases t.walkWith_step follow dir first with
    | onward place hgo => exact (ih place).congr fun more => hgo (rest ++ more)
    | refused e hgo => exact .refused e fun more => hgo (rest ++ more)
    | link place names hgo =>
      exact (hfollow place (names ++ rest)).congr fun more => by
        rw [List.cons_append, hgo, List.append_assoc]
    | file executable content hentry hgo =>
      cases rest with
      | nil =>
        refine .file _ executable content hentry (hgo []) fun more hne => ?_
        cases more with
        | nil => exact absurd rfl hne
        | cons second more => exact hgo (second :: more)
      | cons second rest => exact .refused .notDirectory fun more => hgo (second :: rest ++ more)

theorem walk_walked (t : FileTree) (links : Nat) (dir : Place) (names : List String) :
    t.Walked (t.walk links dir) names := by
  induction links generalizing dir names with
  | zero =>
    exact walkWith_walked (fun _ _ => .refused .tooManyLinks fun _ => rfl) dir names
  | succ links ih => exact walkWith_walked ih dir names

/-! ### Names in a directory -/

structure IsPlain (name : String) : Prop where
  slash : '/' ∉ name.toList
  nonempty : name ≠ ""
  point : name ≠ "."
  points : name ≠ ".."

variable {name : String}

theorem walkWith_plain (h : IsPlain name) (follow : Place → List String → Except Errno Place)
    (place : Place) :
    t.walkWith follow place [name] =
      if t.denies place .search then .error .denied
      else if maxNameBytes < name.utf8ByteSize then .error .nameTooLong
      else
        match t.entryAt (place ++ [name]) with
        | none => .error .absent
        | some .directory | some (.file ..) => .ok (place ++ [name])
        | some (.link target) =>
          follow (if Text.startsWith target "/" then [] else place) (steps target) := by
  rw [walkWith, if_neg h.nonempty, if_neg h.point, if_neg h.points]
  split
  · rfl
  split
  · rfl
  · cases t.entryAt (place ++ [name]) with
    | none => rfl
    | some entry => cases entry <;> simp [walkWith]

def Idle (idle : List String) : Prop :=
  ∀ name ∈ idle, Path.isName name = false

theorem eq_of_isName_false (h : Path.isName name = false) : name = "" ∨ name = "." := by
  rw [Path.isName, Bool.and_eq_false_iff] at h
  simpa using h

/-- Only a point asks whether the directory may be searched. -/
theorem walkWith_of_idle (h : Path.isName name = false)
    {follow : Place → List String → Except Errno Place} {place q : Place} {rest : List String}
    (hwalk : t.walkWith follow place (name :: rest) = .ok q) :
    t.walkWith follow place rest = .ok q ∧ (name = "." → t.denies place .search = false) := by
  rcases eq_of_isName_false h with rfl | rfl
  · rw [walkWith, if_pos rfl] at hwalk
    exact ⟨hwalk, fun hpoint => absurd hpoint (by decide)⟩
  · rw [walkWith, if_neg (by decide)] at hwalk
    split at hwalk
    · cases hwalk
    next hsearch =>
      rw [if_pos rfl] at hwalk
      exact ⟨hwalk, fun _ => Bool.eq_false_iff.2 hsearch⟩

theorem walkWith_idle {idle : List String} (hidle : Idle idle) {place : Place}
    (hsearch : t.denies place .search = false)
    (follow : Place → List String → Except Errno Place) :
    t.walkWith follow place idle = .ok place := by
  induction idle with
  | nil => rfl
  | cons first rest ih =>
    have hrest := ih fun name hname => hidle name (List.mem_cons_of_mem _ hname)
    rcases eq_of_isName_false (hidle first List.mem_cons_self) with rfl | rfl
    · rw [walkWith, if_pos rfl, hrest]
    · rw [walkWith, if_neg (by decide), hsearch, if_neg Bool.false_ne_true, if_pos rfl, hrest]

theorem eq_of_walkWith_idle {idle : List String} (hidle : Idle idle) {place q : Place}
    {follow : Place → List String → Except Errno Place}
    (hwalk : t.walkWith follow place idle = .ok q) : q = place := by
  induction idle with
  | nil => exact (Except.ok.inj hwalk).symm
  | cons first rest ih =>
    have hrest := (walkWith_of_idle (hidle first List.mem_cons_self) hwalk).1
    exact ih (fun name hname => hidle name (List.mem_cons_of_mem _ hname)) hrest

/-- A walk to a name in a directory passes by the directory, which may be searched and has an entry
of that name, and ends there unless the entry is a link. -/
theorem walk_concat (h : IsPlain name) {links : Nat} {dir q : Place} {names : List String}
    (hwalk : t.walk links dir (names ++ [name]) = .ok q) :
    ∃ place, t.denies place .search = false ∧
      (∀ idle, Idle idle → t.walk links dir (names ++ idle) = .ok place) ∧
      ∃ entry, t.entryAt (place ++ [name]) = some entry ∧
        (q = place ++ [name] ∨ ∃ target, entry = .link target) := by
  cases walk_walked t links dir names with
  | entered place follow hmore =>
    rw [hmore, walkWith_plain h] at hwalk
    split at hwalk
    · cases hwalk
    next hsearch =>
    rw [Bool.not_eq_true] at hsearch
    refine ⟨place, hsearch, fun idle hidle => ?_, ?_⟩
    · rw [hmore]
      exact walkWith_idle hidle hsearch follow
    split at hwalk
    · cases hwalk
    cases he : t.entryAt (place ++ [name]) with
    | none =>
      rw [he] at hwalk
      cases hwalk
    | some entry =>
      refine ⟨entry, rfl, ?_⟩
      rw [he] at hwalk
      cases entry with
      | directory | file => exact .inl (Except.ok.inj hwalk).symm
      | link target => exact .inr ⟨target, rfl⟩
  | file _ _ _ _ _ hmore =>
    rw [hmore _ (List.cons_ne_nil _ _)] at hwalk
    cases hwalk
  | refused e hmore =>
    rw [hmore] at hwalk
    cases hwalk

/-- Where a walk leads to behind idle steps it has come to before them. -/
theorem walk_of_idle {links : Nat} {dir place : Place} {names idle : List String}
    (hidle : Idle idle) (hwalk : t.walk links dir (names ++ idle) = .ok place) :
    t.walk links dir names = .ok place := by
  cases walk_walked t links dir names with
  | entered place' follow hmore =>
    have hgo := hmore []
    rw [List.append_nil] at hgo
    rw [hmore] at hwalk
    rw [hgo, eq_of_walkWith_idle hidle hwalk, walkWith]
  | file place' _ _ _ hgo hmore =>
    by_cases hnil : idle = []
    · rwa [hnil, List.append_nil] at hwalk
    · rw [hmore _ hnil] at hwalk
      cases hwalk
  | refused e hmore =>
    rw [hmore] at hwalk
    cases hwalk

/-- In a directory that may be searched a name that is too long is refused. -/
theorem walk_long (h : IsPlain name) (hlong : maxNameBytes < name.utf8ByteSize) {links : Nat}
    {dir place : Place} {names : List String}
    (hwalk : t.walk links dir names = .ok place) (hplace : t.entryAt place = some .directory)
    (hsearch : t.denies place .search = false) :
    t.walk links dir (names ++ [name]) = .error .nameTooLong := by
  cases walk_walked t links dir names with
  | entered place' follow hmore =>
    have hgo := hmore []
    rw [List.append_nil, hwalk, walkWith] at hgo
    cases hgo
    rw [hmore, walkWith_plain h, hsearch, if_neg Bool.false_ne_true, if_pos hlong]
  | file place' _ _ hentry hgo hmore =>
    cases hgo.symm.trans hwalk
    rw [hentry] at hplace
    cases hplace
  | refused e hmore =>
    have hgo := hmore []
    rw [List.append_nil] at hgo
    cases hgo.symm.trans hwalk

/-! ### Written paths -/

def textNames (s : String) : List String :=
  (Text.fields "/" s).filter (· != "")

theorem steps_eq (s : String) : ∃ idle, Idle idle ∧ steps s = textNames s ++ idle := by
  unfold steps textNames
  dsimp only
  split
  · exact ⟨[""], by simp [Idle, Path.isName], rfl⟩
  · exact ⟨[], fun _ hname => absurd hname List.not_mem_nil, (List.append_nil _).symm⟩

theorem endsWith_name (hslash : '/' ∉ name.toList) (hname : name ≠ "") (front : String) :
    Text.endsWith (front ++ name) "/" = false := by
  rw [Bool.eq_false_iff]
  intro hends
  rw [Text.endsWith, List.isSuffixOf_iff_suffix, String.toList_append] at hends
  obtain ⟨before, hbefore⟩ := hends
  rcases List.eq_nil_or_concat name.toList with hnil | ⟨init, last, hlast⟩
  · exact hname (String.toList_eq_nil_iff.1 hnil)
  · rw [hlast, List.concat_eq_append, ← List.append_assoc] at hbefore
    have hend : '/' = last := List.singleton_inj.1 (List.append_inj_right' hbefore rfl)
    exact hslash (hlast ▸ hend ▸ by simp)

theorem startsWith_name (hslash : '/' ∉ name.toList) : Text.startsWith name "/" = false := by
  rw [Bool.eq_false_iff]
  intro hstarts
  rw [Text.startsWith, List.isPrefixOf_iff_prefix] at hstarts
  exact hslash (hstarts.subset (List.mem_singleton_self _))

theorem IsPlain.startsWith_slash (h : IsPlain name) : Text.startsWith name "/" = false :=
  startsWith_name h.slash

theorem textNames_name (hslash : '/' ∉ name.toList) (hname : name ≠ "") :
    textNames name = [name] := by
  rw [textNames, Path.fields_slash, Text.fieldsFrom_of_not_mem hslash, List.map_singleton,
    String.ofList_toList, List.filter_cons_of_pos (by simpa using hname), List.filter_nil]

theorem textNames_append (hslash : '/' ∉ name.toList) (hname : name ≠ "") (front : String) :
    textNames (front ++ "/" ++ name) = textNames front ++ [name] := by
  have hchars : (front ++ "/" ++ name).toList = front.toList ++ '/' :: name.toList := by
    simp [String.toList_append]
  rw [textNames, Path.fields_slash, hchars, Text.fieldsFrom_append, List.map_append,
    List.filter_append]
  congr 1
  exact textNames_name hslash hname

theorem steps_append (hslash : '/' ∉ name.toList) (hname : name ≠ "") (front : String) :
    steps (front ++ name) = textNames (front ++ name) := by
  rw [steps, if_neg (Bool.eq_false_iff.1 (endsWith_name hslash hname front))]
  rfl

theorem IsPlain.steps (h : IsPlain name) : FileTree.steps name = [name] := by
  simpa [textNames_name h.slash h.nonempty] using steps_append h.slash h.nonempty ""

theorem intercalate_concat {names : List String} (hnames : names ≠ []) (name : String) :
    "/".intercalate (names ++ [name]) = "/".intercalate names ++ "/" ++ name := by
  induction names with
  | nil => exact absurd rfl hnames
  | cons first rest ih =>
    cases rest with
    | nil => simp
    | cons second rest =>
      have hrest := ih (List.cons_ne_nil _ _)
      simp only [List.cons_append, String.intercalate_cons_cons] at hrest ⊢
      rw [hrest]
      simp [String.append_assoc]

theorem startsWith_append {front : String} (hfront : front ≠ "") (s : String) :
    Text.startsWith (front ++ s) "/" = Text.startsWith front "/" := by
  unfold Text.startsWith
  rw [String.toList_append]
  cases hchars : front.toList with
  | nil => exact absurd (String.toList_eq_nil_iff.1 hchars) hfront
  | cons c rest => simp [List.isPrefixOf]

/-- How the text of a name in a directory is read: from the same start as the text of the
directory, through the same names, and then to the name. -/
structure Below (dir child name : String) : Prop where
  start : Text.startsWith child "/" = Text.startsWith dir "/"
  size : dir.utf8ByteSize ≤ child.utf8ByteSize
  steps : ∃ front, FileTree.steps child = front ++ [name] ∧
    ∃ idle, Idle idle ∧ FileTree.steps dir = front ++ idle

theorem below_of_append (h : IsPlain name) {dir : String} (hdir : dir ≠ "") :
    Below dir (dir ++ "/" ++ name) name where
  start := by rw [String.append_assoc, startsWith_append hdir]
  size := by
    rw [String.utf8ByteSize_append, String.utf8ByteSize_append]
    omega
  steps := ⟨textNames dir, by rw [steps_append h.slash h.nonempty, textNames_append h.slash h.nonempty],
    steps_eq dir⟩

/-- A name in a root, of which there are two. -/
theorem below_of_slash (h : IsPlain name) {lead : String}
    (hlead : FileTree.steps (lead ++ "/") = textNames lead ++ [""]) :
    Below (lead ++ "/") (lead ++ "/" ++ name) name where
  start := startsWith_append (by simp) name
  size := by
    rw [String.utf8ByteSize_append (s := lead ++ "/")]
    omega
  steps := ⟨textNames lead, by rw [steps_append h.slash h.nonempty, textNames_append h.slash h.nonempty],
    [""], by simp [Idle, Path.isName], hlead⟩

theorem below_child (h : IsPlain name) {p : Path} (hp : p.toString ≠ "") :
    Below p.toString (p.child name).toString name := by
  obtain ⟨anchor, names⟩ := p
  by_cases hnames : names = []
  · subst hnames
    have hsize : 0 < name.utf8ByteSize :=
      Nat.pos_of_ne_zero (mt String.utf8ByteSize_eq_zero_iff.1 h.nonempty)
    cases anchor with
    | relative =>
      have hchild : (Path.child ⟨.relative, []⟩ name).toString = name := by
        simp [Path.child, Path.toString, Path.anchorText]
      rw [hchild]
      exact {
        start := h.startsWith_slash
        size := hsize
        steps := ⟨[], h.steps, ["."], by simp [Idle, Path.isName], rfl⟩ }
    | root =>
      have hchild : (Path.child ⟨.root, []⟩ name).toString = "" ++ "/" ++ name := by
        simp [Path.child, Path.toString, Path.anchorText]
      have hlead : FileTree.steps ("" ++ "/") = textNames "" ++ [""] := by decide
      rw [hchild]
      exact below_of_slash h hlead
    | doubleRoot =>
      have hchild : (Path.child ⟨.doubleRoot, []⟩ name).toString = "/" ++ "/" ++ name := by
        simp [Path.child, Path.toString, Path.anchorText]
      have hlead : FileTree.steps ("/" ++ "/") = textNames "/" ++ [""] := by decide
      rw [hchild]
      exact below_of_slash h hlead
  · have hchild : (Path.child ⟨anchor, names⟩ name).toString =
        (Path.toString ⟨anchor, names⟩) ++ "/" ++ name := by
      simp [Path.child, Path.toString, intercalate_concat hnames, hnames, String.append_assoc]
    rw [hchild]
    exact below_of_append h hp

/-- A name that is found in a directory is found where the directory leads to. -/
theorem locate_of_child (h : IsPlain name) {p : Path} (hp : p.toString ≠ "") {q : Place}
    (hchild : t.locate workingDir (p.child name) = .ok q) :
    ∃ place, t.locate workingDir p = .ok place ∧ t.denies place .search = false ∧ ∃ entry,
      t.entryAt (place ++ [name]) = some entry ∧
        (q = place ++ [name] ∨ ∃ target, entry = .link target) := by
  have hbelow := below_child h hp
  obtain ⟨front, hsteps, idle, hidle, hdir⟩ := hbelow.steps
  unfold locate locateText at hchild ⊢
  split at hchild
  · cases hchild
  split at hchild
  · cases hchild
  next hsize =>
    rw [hsteps, hbelow.start] at hchild
    obtain ⟨place, hsearch, hplace, hentry⟩ := walk_concat h hchild
    have hfits : ¬maxPathBytes ≤ p.toString.utf8ByteSize := by
      have := hbelow.size
      omega
    refine ⟨place, ?_, hsearch, hentry⟩
    rw [if_neg hp, if_neg hfits, hdir]
    exact hplace idle hidle

/-- A directory is reached by the names in front of the name of an entry. -/
theorem walk_of_locate {p : Path} {place : Place} (hbelow : Below p.toString (p.child name).toString name)
    (hplace : t.locate workingDir p = .ok place) :
    ∃ front, steps (p.child name).toString = front ++ [name] ∧
      t.walk maxLinks (if Text.startsWith (p.child name).toString "/" then [] else workingDir)
        front = .ok place := by
  obtain ⟨front, hsteps, idle, hidle, hdir⟩ := hbelow.steps
  refine ⟨front, hsteps, walk_of_idle hidle ?_⟩
  unfold locate locateText at hplace
  split at hplace
  · cases hplace
  split at hplace
  · cases hplace
  rwa [hdir, ← hbelow.start] at hplace

/-- What the path of a name in a directory stands for is the entry of that name where the directory
leads to, unless it must not be searched there. -/
theorem entry?_child (h : IsPlain name) {p : Path} (hp : p.toString ≠ "") {place : Place}
    (hplace : t.locate workingDir p = .ok place) :
    t.entry? workingDir (p.child name).toString =
      if t.denies place .search then none else t.entryAt (place ++ [name]) := by
  obtain ⟨front, hsteps, hfront⟩ := walk_of_locate (below_child h hp) hplace
  have hlast : (front ++ [name]).getLast? = some name := List.getLast?_concat
  have hpoints : (name = "" || name = "." || name = "..") = false := by
    simp [h.nonempty, h.point, h.points]
  unfold entry?
  rw [hsteps, hlast]
  simp only [hpoints, List.dropLast_concat, hfront, Bool.false_eq_true, if_false]

/-- A name in a directory, as a path from there. -/
theorem ofString_nested {dir : String} (hd : IsPlain dir) (h : IsPlain name) :
    Path.ofString (dir ++ "/" ++ name) = ⟨.relative, [dir, name]⟩ := by
  have hchars : (dir ++ "/" ++ name).toList = dir.toList ++ '/' :: name.toList := by
    simp [String.toList_append]
  have hnames : (Text.fields "/" (dir ++ "/" ++ name)).filter Path.isName = [dir, name] := by
    have hdir : Path.isName dir = true := by simp [Path.isName, hd.nonempty, hd.point]
    have hname : Path.isName name = true := by simp [Path.isName, h.nonempty, h.point]
    rw [Path.fields_slash, hchars, Text.fieldsFrom_append, Text.fieldsFrom_of_not_mem hd.slash,
      Text.fieldsFrom_of_not_mem h.slash]
    simp [hdir, hname]
  have hanchor : Path.anchorOf (dir ++ "/" ++ name).toList = .relative := by
    rw [hchars]
    cases hfront : dir.toList with
    | nil => exact absurd (String.toList_eq_nil_iff.1 hfront) hd.nonempty
    | cons c rest =>
      have hc : c ≠ '/' := by
        rintro rfl
        exact hd.slash (hfront ▸ List.mem_cons_self)
      simp [Path.anchorOf, hc]
  rw [Path.ofString, hnames, hanchor]

/-- A file in a directory is found by the names of both. -/
theorem read_nested {dir : String} (hd : IsPlain dir) (h : IsPlain name)
    (hdirSize : dir.utf8ByteSize ≤ maxNameBytes) (hsize : name.utf8ByteSize ≤ maxNameBytes)
    (hdirectory : t.entryAt (workingDir ++ [dir]) = some .directory) {executable : Bool}
    {content : Bytes}
    (hfile : t.entryAt (workingDir ++ [dir] ++ [name]) = some (.file executable content))
    (hopen : t.denials = []) :
    t.read workingDir ⟨.relative, [dir, name]⟩ = .ok content := by
  have hallowed : ∀ place p, t.denies place p = false := fun place p => by simp [denies, hopen]
  have htext : Path.toString ⟨.relative, [dir, name]⟩ = dir ++ "/" ++ name := by
    simp [Path.toString, Path.anchorText]
  have hbytes : (dir ++ "/" ++ name).utf8ByteSize < maxPathBytes := by
    have hslash : ("/" : String).utf8ByteSize = 1 := rfl
    rw [String.utf8ByteSize_append, String.utf8ByteSize_append, hslash]
    simp only [maxNameBytes] at hdirSize hsize
    simp only [maxPathBytes]
    omega
  have hlocate : t.locate workingDir ⟨.relative, [dir, name]⟩ =
      .ok (workingDir ++ [dir] ++ [name]) := by
    have hsteps : steps (dir ++ "/" ++ name) = [dir, name] := by
      rw [steps_append h.slash h.nonempty, textNames_append h.slash h.nonempty,
        textNames_name hd.slash hd.nonempty, List.singleton_append]
    have hstart : Text.startsWith (dir ++ "/" ++ name) "/" = false := by
      rw [String.append_assoc, startsWith_append hd.nonempty, hd.startsWith_slash]
    rw [locate, htext, locateText, if_neg (by simp), if_neg (by omega), hstart, hsteps]
    simp only [Bool.false_eq_true, if_false, maxLinks, walk]
    rw [walkWith, if_neg hd.nonempty, hallowed, if_neg Bool.false_ne_true, if_neg hd.point,
      if_neg hd.points, if_neg (by omega), hdirectory]
    dsimp only
    rw [walkWith_plain h, hallowed, if_neg Bool.false_ne_true, if_neg (by omega), hfile]
  simp only [read, hlocate, bind, Except.bind, readAt, hfile, hallowed, Bool.false_eq_true, if_false]

theorem asks_eq_true {answer : Entry → Bool} {result : Except Errno Entry}
    (h : asks answer result = .ok true) : ∃ entry, result = .ok entry ∧ answer entry = true := by
  cases result with
  | ok entry => exact ⟨entry, rfl, Except.ok.inj h⟩
  | error e =>
    rw [asks] at h
    split at h <;> cases h

theorem status_of_isFile {p : Path} (h : t.isFile workingDir p = .ok true) :
    ∃ executable content, t.status workingDir p = .ok (.file executable content) := by
  unfold isFile at h
  split at h
  · cases h
  obtain ⟨entry, hstatus, hanswer⟩ := asks_eq_true h
  cases entry with
  | file executable content => exact ⟨executable, content, hstatus⟩
  | directory | link => cases hanswer

theorem locate_of_status {p : Path} {entry : Entry} (h : t.status workingDir p = .ok entry) :
    ∃ q, t.locate workingDir p = .ok q ∧ t.entryAt q = some entry := by
  unfold status at h
  cases hlocate : t.locate workingDir p with
  | error e =>
    rw [hlocate] at h
    cases h
  | ok q =>
    rw [hlocate] at h
    refine ⟨q, rfl, ?_⟩
    change t.statusAt q = .ok entry at h
    unfold statusAt at h
    split at h
    next hentry =>
      cases h
      exact hentry
    next => cases h

theorem locate_of_isFile {p : Path} (h : t.isFile workingDir p = .ok true) :
    ∃ q, t.locate workingDir p = .ok q := by
  obtain ⟨executable, content, hstatus⟩ := status_of_isFile h
  obtain ⟨q, hq, -⟩ := locate_of_status hstatus
  exact ⟨q, hq⟩

/-- A file can be read unless that is denied. -/
theorem read_of_isFile {p : Path} (h : t.isFile workingDir p = .ok true) :
    t.read workingDir p = .error .denied ∨ ∃ content, t.read workingDir p = .ok content := by
  obtain ⟨executable, content, hstatus⟩ := status_of_isFile h
  obtain ⟨q, hq, hentry⟩ := locate_of_status hstatus
  have hread : t.read workingDir p = t.readAt q := by rw [read, hq]; rfl
  rw [hread, readAt, hentry]
  by_cases hdenied : t.denies q .read = true
  · exact .inl (if_pos hdenied)
  · exact .inr ⟨content, if_neg hdenied⟩

/-- Nothing is found by an empty text. -/
theorem toString_of_isFile {p : Path} (h : t.isFile workingDir p = .ok true) : p.toString ≠ "" := by
  intro hempty
  obtain ⟨q, hq⟩ := locate_of_isFile h
  rw [locate, locateText, if_pos hempty] at hq
  cases hq

/-- In a directory that may be searched, a file by a name that is too long cannot be asked for. -/
theorem isFile_long (h : IsPlain name) (hlong : maxNameBytes < name.utf8ByteSize) {p : Path}
    (hnul : (p.child name).hasNul = false) {place : Place}
    (hplace : t.locate workingDir p = .ok place) (hentry : t.entryAt place = some .directory)
    (hsearch : t.denies place .search = false) :
    t.isFile workingDir (p.child name) = .error .nameTooLong := by
  have hp : p.toString ≠ "" := by
    intro hempty
    rw [locate, locateText, if_pos hempty] at hplace
    cases hplace
  have hbelow := below_child h hp
  obtain ⟨front, hsteps, hfront⟩ := walk_of_locate hbelow hplace
  have hchild : (p.child name).toString ≠ "" := by
    intro hempty
    have hsize := hbelow.size
    rw [hempty] at hsize
    exact hp (String.utf8ByteSize_eq_zero_iff.1 (Nat.le_zero.1 hsize))
  have hlocate : t.locate workingDir (p.child name) = .error .nameTooLong := by
    rw [locate, locateText, if_neg hchild]
    split
    · rfl
    · rw [hsteps]
      exact walk_long h hlong hfront hentry hsearch
  rw [isFile, hnul, status, hlocate]
  rfl

/-- Behind a link the walk goes on with what the link names. -/
theorem locate_link_long {target : String} (h : IsPlain name)
    (hsize : name.utf8ByteSize ≤ maxNameBytes) (htarget : IsPlain target)
    (hlong : maxNameBytes < target.utf8ByteSize)
    (hlink : t.entryAt (workingDir ++ [name]) = some (.link target))
    (hentry : t.entryAt workingDir = some .directory)
    (hsearch : t.denies workingDir .search = false) :
    t.locate workingDir ⟨.relative, [name]⟩ = .error .nameTooLong := by
  have htext : Path.toString ⟨.relative, [name]⟩ = name := by
    simp [Path.toString, Path.anchorText]
  have hfits : ¬maxPathBytes ≤ name.utf8ByteSize := by
    simp only [maxNameBytes] at hsize
    simp only [maxPathBytes]
    omega
  rw [locate, htext, locateText, if_neg h.nonempty, if_neg hfits, h.startsWith_slash, h.steps]
  simp only [Bool.false_eq_true, if_false, maxLinks, walk]
  rw [walkWith_plain h, hsearch, if_neg Bool.false_ne_true, if_neg (Nat.not_lt.2 hsize), hlink]
  dsimp only
  rw [htarget.startsWith_slash, htarget.steps]
  have hstart : t.walk 39 workingDir [] = .ok workingDir := rfl
  exact walk_long htarget hlong hstart hentry hsearch

def longName : String :=
  String.ofList (List.replicate 300 'x')

theorem toList_longName : longName.toList = List.replicate 300 'x' :=
  String.toList_ofList

theorem isPlain_longName : IsPlain longName := by
  have hlong : ∀ short : String, short.toList.length < 300 → longName ≠ short := by
    intro short hshort heq
    rw [← heq, toList_longName, List.length_replicate] at hshort
    exact Nat.lt_irrefl _ hshort
  refine ⟨?_, hlong "" (by decide), hlong "." (by decide), hlong ".." (by decide)⟩
  rw [toList_longName]
  intro hmem
  exact absurd (List.eq_of_mem_replicate hmem) (by decide)

theorem maxNameBytes_lt_longName : maxNameBytes < longName.utf8ByteSize := by
  have hsize := Utf8.length_le_utf8ByteSize longName
  rw [toList_longName, List.length_replicate] at hsize
  exact Nat.lt_of_lt_of_le (by decide) hsize

/-! ### Removal -/

theorem length_remove_le (t : FileTree) (place : Place) :
    (t.remove place).entries.length ≤ t.entries.length :=
  List.length_filter_le _ _

theorem length_remove_lt {place : Place} (h : place ∈ t.entries.map Prod.fst) :
    (t.remove place).entries.length < t.entries.length := by
  obtain ⟨entry, hentry, hplace⟩ := List.mem_map.1 h
  refine List.length_filter_lt_length_iff_exists.2 ⟨entry, hentry, ?_⟩
  simp [hplace]

theorem mem_of_entryAt {place : Place} (hplace : place ≠ [])
    (h : (t.entryAt place).isSome = true) : place ∈ t.entries.map Prod.fst := by
  rw [entryAt, if_neg hplace, List.lookup_isSome_iff] at h
  obtain ⟨entry, hentry, heq⟩ := h
  exact List.mem_map.2 ⟨entry, hentry, (beq_iff_eq.1 heq).symm⟩

theorem mem_children_iff {place : Place} :
    name ∈ t.children place ↔ t.entryAt (place ++ [name]) ≠ none := by
  rw [entryAt, if_neg (by simp), Option.ne_none_iff_isSome, List.lookup_isSome_iff, children,
    List.mem_filterMap]
  constructor
  · rintro ⟨entry, hentry, hlast⟩
    split at hlast
    next hfront =>
      obtain ⟨front, heq⟩ := List.getLast?_eq_some_iff.1 hlast
      rw [heq, List.dropLast_concat] at hfront
      exact ⟨entry, hentry, by rw [heq, hfront, beq_self_eq_true]⟩
    next => cases hlast
  · rintro ⟨entry, hentry, heq⟩
    refine ⟨entry, hentry, ?_⟩
    rw [← beq_iff_eq.1 heq, List.dropLast_concat, if_pos rfl, List.getLast?_concat]

def keeps (t : FileTree) (workingDir : Place) (dir : Path) (name : String) : Bool :=
  match t.unlink workingDir dir name with
  | .ok _ | .error .absent => false
  | .error _ => true

/-- What is left when the entry of that name has been removed, or could not be. -/
def unlinked (t : FileTree) (workingDir : Place) (dir : Path) (name : String) : FileTree :=
  match t.unlink workingDir dir name with
  | .ok u => u
  | .error _ => t

theorem unlinked_of_keeps {p : Path} (h : t.keeps workingDir p name = true) :
    t.unlinked workingDir p name = t := by
  unfold keeps at h
  unfold unlinked
  split at h
  next => cases h
  next => cases h
  next hrefused => rw [hrefused]

theorem unlinkAt_ok {place : Place} (h : t.unlinkAt place name = .ok u) :
    (t.entryAt (place ++ [name])).isSome = true ∧ u = t.remove (place ++ [name]) := by
  unfold unlinkAt at h
  split at h
  · cases h
  split at h
  next => cases h
  next => cases h
  next hentry =>
    split at h
    · cases h
    · cases h
      exact ⟨hentry ▸ rfl, rfl⟩

/-- At most one entry goes, that of the name in the directory that the path leads to. -/
theorem unlink_ok {p : Path} (h : t.unlink workingDir p name = .ok u) :
    ∃ place, t.locate workingDir p = .ok place ∧
      (t.entryAt (place ++ [name])).isSome = true ∧ u = t.remove (place ++ [name]) := by
  unfold unlink at h
  cases hplace : t.locate workingDir p with
  | error e =>
    rw [hplace] at h
    cases h
  | ok place =>
    rw [hplace] at h
    exact ⟨place, rfl, unlinkAt_ok h⟩

theorem unlinked_cases (t : FileTree) (workingDir : Place) (p : Path) (name : String) :
    t.unlinked workingDir p name = t ∨ ∃ place, t.locate workingDir p = .ok place ∧
      t.unlinked workingDir p name = t.remove (place ++ [name]) := by
  unfold unlinked
  split
  next hgone =>
    obtain ⟨place, hplace, -, rfl⟩ := unlink_ok hgone
    exact .inr ⟨place, hplace, rfl⟩
  next => exact .inl rfl

theorem length_unlinked_le (t : FileTree) (workingDir : Place) (p : Path) (name : String) :
    (t.unlinked workingDir p name).entries.length ≤ t.entries.length := by
  rcases t.unlinked_cases workingDir p name with hsame | ⟨place, -, hgone⟩
  · exact Nat.le_of_eq (congrArg (·.entries.length) hsame)
  · rw [hgone]
    exact length_remove_le t _

/-- An entry that is there goes unless it is kept. -/
theorem unlinked_of_goes {p : Path} {place : Place} (hplace : t.locate workingDir p = .ok place)
    (hentry : (t.entryAt (place ++ [name])).isSome = true)
    (hgoes : t.keeps workingDir p name = false) :
    t.unlinked workingDir p name = t.remove (place ++ [name]) := by
  have hunlink : t.unlink workingDir p name = t.unlinkAt place name := by
    rw [unlink, hplace]
    rfl
  unfold keeps at hgoes
  unfold unlinked
  rw [hunlink] at hgoes ⊢
  split at hgoes
  next hgone =>
    rw [hgone]
    exact (unlinkAt_ok hgone).2
  next habsent =>
    unfold unlinkAt at habsent
    split at habsent
    · cases habsent
    split at habsent
    next hnone =>
      rw [hnone] at hentry
      cases hentry
    next => cases habsent
    next => split at habsent <;> cases habsent
  next => cases hgoes

theorem length_unlinked_lt {p : Path} {place : Place} (hplace : t.locate workingDir p = .ok place)
    (hentry : (t.entryAt (place ++ [name])).isSome = true)
    (hgoes : t.keeps workingDir p name = false) :
    (t.unlinked workingDir p name).entries.length < t.entries.length := by
  rw [unlinked_of_goes hplace hentry hgoes]
  exact length_remove_lt (mem_of_entryAt (by simp) hentry)

/-- Under a name that leads to a file there is an entry, and no directory. -/
theorem entry_of_isFile (h : IsPlain name) {p : Path} (hp : p.toString ≠ "")
    (hfile : t.isFile workingDir (p.child name) = .ok true) :
    ∃ place, t.locate workingDir p = .ok place ∧ t.denies place .search = false ∧
      ∃ entry, t.entryAt (place ++ [name]) = some entry ∧ entry ≠ .directory := by
  obtain ⟨executable, content, hstatus⟩ := status_of_isFile hfile
  obtain ⟨q, hq, hcontent⟩ := locate_of_status hstatus
  obtain ⟨place, hplace, hsearch, entry, hentry, hend⟩ := locate_of_child h hp hq
  refine ⟨place, hplace, hsearch, entry, hentry, ?_⟩
  rintro rfl
  rcases hend with rfl | ⟨target, hlink⟩
  · cases hentry.symm.trans hcontent
  · cases hlink

/-- Whether a file that is found in a directory goes is up to the permissions alone. -/
theorem keeps_of_isFile (h : IsPlain name) {p : Path} (hp : p.toString ≠ "") {place : Place}
    (hplace : t.locate workingDir p = .ok place)
    (hfile : t.isFile workingDir (p.child name) = .ok true) :
    t.keeps workingDir p name = t.keepsAt place name := by
  obtain ⟨place', hplace', hsearch, entry, hentry, hnode⟩ := entry_of_isFile h hp hfile
  cases hplace.symm.trans hplace'
  have hunlink : t.unlink workingDir p name =
      if t.keepsAt place name then .error .denied else .ok (t.remove (place ++ [name])) := by
    rw [unlink, hplace]
    simp only [bind, Except.bind]
    rw [unlinkAt, hsearch, if_neg Bool.false_ne_true, hentry]
    cases entry with
    | directory => exact absurd rfl hnode
    | file | link => rfl
  rw [keeps, hunlink]
  cases t.keepsAt place name <;> rfl

end FileTree
end TriplePass
