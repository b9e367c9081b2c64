import TriplePass.Proofs.FileTree

/-! # What a removal leaves to be found

Removing an entry closes every walk that passes by it and leaves all others alone. So a path leads
where it has led before, or nowhere: nothing new is ever found, no content changes, and a question
that the system has answered it does not refuse later on.
-/
namespace TriplePass.FileTree
variable {t u : FileTree} {workingDir place : Place} {p : Path} {name : String}

/-- The same answer as before, or that nothing is there. -/
def Remains {α : Type} (before after : Except Errno α) : Prop :=
  after = before ∨ after = .error .absent

namespace Remains
variable {α β : Type} {x y z : Except Errno α}

theorem refl (x : Except Errno α) : Remains x x :=
  .inl rfl

theorem trans (h : Remains x y) (h' : Remains y z) : Remains x z := by
  rcases h' with h' | h'
  · rw [h']
    exact h
  · exact .inr h'

theorem ok {a : α} (h : Remains x y) (hy : y = .ok a) : x = .ok a := by
  rcases h with h | h
  · exact h.symm.trans hy
  · cases h.symm.trans hy

/-- What is asked of both answers may itself be missing where it was there before. -/
theorem bind {f g : α → Except Errno β} (h : Remains x y) (hfg : ∀ a, Remains (f a) (g a)) :
    Remains (x >>= f) (y >>= g) := by
  rcases h with h | h
  · cases x with
    | error e =>
      rw [h]
      exact .inl rfl
    | ok a =>
      rw [h]
      exact hfg a
  · rw [h]
    exact .inr rfl

end Remains

/-! ### One entry -/

theorem entryAt_remove_self (t : FileTree) {place : Place} (hplace : place ≠ []) :
    (t.remove place).entryAt place = none := by
  rw [entryAt_remove, if_pos ⟨rfl, hplace⟩]

theorem entryAt_remove_other (t : FileTree) {place q : Place} (hq : q ≠ place) :
    (t.remove place).entryAt q = t.entryAt q := by
  rw [entryAt_remove, if_neg fun h => hq h.1]

theorem entryAt_remove_cases (t : FileTree) (place q : Place) :
    (t.remove place).entryAt q = t.entryAt q ∨ (t.remove place).entryAt q = none := by
  rw [entryAt_remove]
  split
  · exact .inr rfl
  · exact .inl rfl

theorem denies_remove (t : FileTree) (place q : Place) (p : Permission) :
    (t.remove place).denies q p = t.denies q p := rfl

/-- Two walks come to related results if they do so behind links, and where the place comes in the
way that only the first tree has. -/
theorem walkWith_relates {R : Except Errno Place → Except Errno Place → Prop}
    (hrefl : ∀ result, R result result) {follow follow' : Place → List String → Except Errno Place}
    (hfollow : ∀ dir names, R (follow dir names) (follow' dir names)) {place : Place}
    (hclosed : ∀ dir name rest, t.walkWith follow dir (name :: rest) =
        (match t.entryAt place with
          | none => .error .absent
          | some .directory => t.walkWith follow place rest
          | some (.file ..) => if rest.isEmpty then .ok place else .error .notDirectory
          | some (.link target) =>
            follow (if Text.startsWith target "/" then [] else dir) (steps target ++ rest)) →
      R (t.walkWith follow dir (name :: rest)) (.error .absent))
    (dir : Place) (names : List String) :
    R (t.walkWith follow dir names) ((t.remove place).walkWith follow' dir names) := by
  induction names generalizing dir with
  | nil => exact hrefl _
  | cons name rest ih =>
    by_cases hempty : name = ""
    · rw [walkWith, walkWith, if_pos hempty, if_pos hempty]
      exact ih dir
    by_cases hsearch : t.denies dir .search = true
    · rw [walkWith, walkWith, if_neg hempty, if_neg hempty, denies_remove, if_pos hsearch,
        if_pos hsearch]
      exact hrefl _
    by_cases hdot : name = "."
    · rw [walkWith, walkWith, if_neg hempty, if_neg hempty, denies_remove, if_neg hsearch,
        if_neg hsearch, if_pos hdot, if_pos hdot]
      exact ih dir
    by_cases hup : name = ".."
    · rw [walkWith, walkWith, if_neg hempty, if_neg hempty, denies_remove, if_neg hsearch,
        if_neg hsearch, if_neg hdot, if_neg hdot, if_pos hup, if_pos hup]
      exact ih dir.dropLast
    by_cases hlong : maxNameBytes < name.utf8ByteSize
    · rw [walkWith, walkWith, if_neg hempty, if_neg hempty, denies_remove, if_neg hsearch,
        if_neg hsearch, if_neg hdot, if_neg hdot, if_neg hup, if_neg hup, if_pos hlong,
        if_pos hlong]
      exact hrefl _
    have hentry := walkWith_entry hempty hsearch hdot hup hlong follow rest
    have hsearch' : ¬(t.remove place).denies dir .search = true := hsearch
    have hentry' := walkWith_entry hempty hsearch' hdot hup hlong follow' rest
    by_cases hhere : dir ++ [name] = place
    · have hgone : (t.remove place).walkWith follow' dir (name :: rest) = .error .absent := by
        rw [hentry', hhere, t.entryAt_remove_self (by simp [← hhere])]
      rw [hgone]
      rw [hhere] at hentry
      exact hclosed dir name rest hentry
    · rw [hentry, hentry', t.entryAt_remove_other hhere]
      cases t.entryAt (dir ++ [name]) with
      | none => exact hrefl _
      | some entry =>
        cases entry with
        | directory => exact ih (dir ++ [name])
        | file executable content => exact hrefl _
        | link target => exact hfollow _ _

theorem walkWith_remove {follow follow' : Place → List String → Except Errno Place}
    (hfollow : ∀ dir names, Remains (follow dir names) (follow' dir names)) (place dir : Place)
    (names : List String) :
    Remains (t.walkWith follow dir names) ((t.remove place).walkWith follow' dir names) :=
  walkWith_relates Remains.refl hfollow (fun _ _ _ _ => .inr rfl) dir names

theorem walk_remove (t : FileTree) (place : Place) (links : Nat) (dir : Place)
    (names : List String) :
    Remains (t.walk links dir names) ((t.remove place).walk links dir names) := by
  induction links generalizing dir names with
  | zero => exact walkWith_remove (fun _ _ => .refl _) place dir names
  | succ links ih => exact walkWith_remove ih place dir names

theorem locate_remove (t : FileTree) (place workingDir : Place) (p : Path) :
    Remains (t.locate workingDir p) ((t.remove place).locate workingDir p) := by
  unfold locate locateText
  split
  · exact .refl _
  split
  · exact .refl _
  · exact t.walk_remove place _ _ _

/-! ### Trees from which entries were removed -/

inductive Thinned : FileTree → FileTree → Prop where
  | refl (t : FileTree) : Thinned t t
  | remove {t u : FileTree} (place : Place) : Thinned (t.remove place) u → Thinned t u

namespace Thinned

theorem one (t : FileTree) (place : Place) : Thinned t (t.remove place) :=
  .remove place (.refl _)

theorem trans {v : FileTree} (h : Thinned t u) (h' : Thinned u v) : Thinned t v := by
  induction h with
  | refl => exact h'
  | remove place _ ih => exact .remove place (ih h')

/-- Nothing else is changed, whether the entry goes or not. -/
theorem unlinked (t : FileTree) (workingDir : Place) (p : Path) (name : String) :
    Thinned t (t.unlinked workingDir p name) := by
  rcases t.unlinked_cases workingDir p name with hsame | ⟨place, -, hgone⟩
  · rw [hsame]
    exact .refl t
  · rw [hgone]
    exact one t _

theorem denies (h : Thinned t u) (q : Place) (permission : Permission) :
    u.denies q permission = t.denies q permission := by
  induction h with
  | refl => rfl
  | remove place _ ih => exact ih

theorem subset (h : Thinned t u) : u.entries ⊆ t.entries := by
  induction h with
  | refl => exact List.Subset.refl _
  | remove place _ ih => exact fun entry hentry => (List.mem_filter.1 (ih hentry)).1

theorem entryAt (h : Thinned t u) (q : Place) :
    u.entryAt q = t.entryAt q ∨ u.entryAt q = none := by
  induction h with
  | refl => exact .inl rfl
  | @remove t u place _ ih =>
    rcases ih with ih | ih
    · rw [ih]
      exact t.entryAt_remove_cases place q
    · exact .inr ih

theorem locate (h : Thinned t u) (workingDir : Place) (p : Path) :
    Remains (t.locate workingDir p) (u.locate workingDir p) := by
  induction h with
  | refl => exact .refl _
  | @remove t u place _ ih => exact (t.locate_remove place workingDir p).trans ih

theorem status (h : Thinned t u) (workingDir : Place) (p : Path) :
    Remains (t.status workingDir p) (u.status workingDir p) := by
  refine (h.locate workingDir p).bind fun q => ?_
  unfold statusAt
  rcases h.entryAt q with hentry | hentry
  · rw [hentry]
    exact .refl _
  · rw [hentry]
    exact .inr rfl

theorem read (h : Thinned t u) (workingDir : Place) (p : Path) :
    Remains (t.read workingDir p) (u.read workingDir p) := by
  refine (h.locate workingDir p).bind fun q => ?_
  unfold readAt
  rw [h.denies q .read]
  rcases h.entryAt q with hentry | hentry
  · rw [hentry]
    exact .refl _
  · rw [hentry]
    exact .inr rfl

theorem asks {answer : Entry → Bool} {before after : Except Errno Entry}
    (h : Remains before after) :
    FileTree.asks answer after = FileTree.asks answer before ∨
      FileTree.asks answer after = .ok false := by
  rcases h with h | h
  · exact .inl (by rw [h])
  · right
    rw [h]
    rfl

theorem isFile (h : Thinned t u) (workingDir : Place) (p : Path) :
    u.isFile workingDir p = t.isFile workingDir p ∨ u.isFile workingDir p = .ok false := by
  unfold FileTree.isFile
  split
  · exact .inr rfl
  · exact asks (h.status workingDir p)

theorem isEmptyFile (h : Thinned t u) (workingDir : Place) (p : Path) :
    u.isEmptyFile workingDir p = t.isEmptyFile workingDir p ∨ u.isEmptyFile workingDir p = false := by
  unfold FileTree.isEmptyFile
  rcases h.status workingDir p with hstatus | hstatus
  · exact .inl (by rw [hstatus])
  · exact .inr (by rw [hstatus])

theorem isDirectory (h : Thinned t u) (workingDir : Place) (p : Path) :
    u.isDirectory workingDir p = t.isDirectory workingDir p ∨
      u.isDirectory workingDir p = .ok false := by
  unfold FileTree.isDirectory
  split
  · exact .inr rfl
  · exact asks (h.status workingDir p)

/-- What is no file does not become one. -/
theorem isFile_false (h : Thinned t u) (hfile : t.isFile workingDir p = .ok false) :
    u.isFile workingDir p = .ok false := by
  rcases h.isFile workingDir p with heq | heq
  · rw [heq, hfile]
  · exact heq

end Thinned

/-! ### Removing what was found -/

def WellNamed (t : FileTree) : Prop :=
  ∀ entry ∈ t.entries, ∀ name ∈ entry.1, IsPlain name

instance (name : String) : Decidable (IsPlain name) :=
  decidable_of_iff ('/' ∉ name.toList ∧ name ≠ "" ∧ name ≠ "." ∧ name ≠ "..")
    ⟨fun ⟨hslash, hempty, hpoint, hpoints⟩ => ⟨hslash, hempty, hpoint, hpoints⟩,
      fun h => ⟨h.slash, h.nonempty, h.point, h.points⟩⟩

instance (t : FileTree) : Decidable t.WellNamed :=
  inferInstanceAs (Decidable (∀ entry ∈ t.entries, ∀ name ∈ entry.1, IsPlain name))

theorem WellNamed.thinned (ht : t.WellNamed) (h : Thinned t u) : u.WellNamed :=
  fun entry hentry => ht entry (h.subset hentry)

theorem locate_of_isDirectory (h : t.isDirectory workingDir p = .ok true) :
    ∃ q, t.locate workingDir p = .ok q := by
  unfold isDirectory at h
  split at h
  · cases h
  obtain ⟨entry, hstatus, -⟩ := asks_eq_true h
  obtain ⟨q, hq, -⟩ := locate_of_status hstatus
  exact ⟨q, hq⟩

inductive FileOrLink (t : FileTree) (workingDir : Place) (p : Path) (place : Place) : Prop where
  | file (executable : Bool) (content : Bytes) :
      t.entryAt place = some (.file executable content) → FileOrLink t workingDir p place
  | link (target : String) (behind : Place) (executable : Bool) (content : Bytes) :
      t.entryAt place = some (.link target) → t.locate workingDir p = .ok behind →
      t.entryAt behind = some (.file executable content) → FileOrLink t workingDir p place

/-- What leads to a file is one, or a link to one, in the directory that it lies in. -/
theorem fileOrLink_of_isFile (h : IsPlain name) (hp : p.toString ≠ "")
    (hfile : t.isFile workingDir (p.child name) = .ok true) :
    ∃ place, t.locate workingDir p = .ok place ∧
      t.FileOrLink workingDir (p.child name) (place ++ [name]) := by
  obtain ⟨executable, content, hstatus⟩ := status_of_isFile hfile
  obtain ⟨q, hq, hcontent⟩ := locate_of_status hstatus
  obtain ⟨place, hplace, -, entry, hentry, hend⟩ := locate_of_child h hp hq
  refine ⟨place, hplace, ?_⟩
  rcases hend with rfl | ⟨target, rfl⟩
  · exact .file executable content hcontent
  · exact .link target q executable content hentry hq hcontent

/-- A file that was removed from its directory is not found any more. -/
theorem isFile_unlinked (h : IsPlain name) (hp : p.toString ≠ "")
    (hfile : t.isFile workingDir (p.child name) = .ok true)
    (hgoes : t.keeps workingDir p name = false) :
    (t.unlinked workingDir p name).isFile workingDir (p.child name) = .ok false := by
  have hthinned := Thinned.unlinked t workingDir p name
  rcases hthinned.isFile workingDir (p.child name) with hsame | hgone
  · -- a walk to the name would pass by the directory again, where the name is missing
    exfalso
    rw [hfile] at hsame
    obtain ⟨place, hplace, -, entry, hentry, -⟩ := entry_of_isFile h hp hsame
    obtain ⟨place', hplace', -, entry', hentry', -⟩ := entry_of_isFile h hp hfile
    cases hplace'.symm.trans ((hthinned.locate workingDir p).ok hplace)
    rw [unlinked_of_goes hplace' (hentry' ▸ rfl) hgoes, entryAt_remove_self t (by simp)] at hentry
    cases hentry
  · exact hgone

/-- What the system keeps, it keeps whatever else is removed. -/
theorem Thinned.keeps (htu : Thinned t u) (h : IsPlain name) (hp : p.toString ≠ "")
    (hfile : u.isFile workingDir (p.child name) = .ok true) :
    u.keeps workingDir p name = t.keeps workingDir p name := by
  obtain ⟨place, hplace, -⟩ := entry_of_isFile h hp hfile
  have hfile' : t.isFile workingDir (p.child name) = .ok true := by
    rcases htu.isFile workingDir (p.child name) with hsame | hgone
    · exact hsame.symm.trans hfile
    · cases hfile.symm.trans hgone
  rw [keeps_of_isFile h hp hplace hfile,
    keeps_of_isFile h hp ((htu.locate workingDir p).ok hplace) hfile', keepsAt, keepsAt,
    htu.denies, htu.denies]

end TriplePass.FileTree
