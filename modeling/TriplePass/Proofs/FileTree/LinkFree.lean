import TriplePass.Proofs.FileTree.Removal

/-! # Directories without links

A walk that does not come by a regular file takes no notice of its removal. In a directory without
links a walk to a name comes by no other name there, so its files can be removed one by one: what
is to be found under the other names stays the same.
-/
namespace TriplePass.FileTree
variable {t u : FileTree} {workingDir place : Place} {p : Path} {name other : String}

/-! ### Walks that come by a file -/

def EndsAt (place : Place) (result : Except Errno Place) : Prop :=
  result = .ok place ∨ result = .error .notDirectory

theorem walkWith_remove_file {executable : Bool} {content : Bytes}
    (hplace : t.entryAt place = some (.file executable content))
    {follow follow' : Place → List String → Except Errno Place}
    (hfollow : ∀ dir names, follow' dir names = follow dir names ∨ EndsAt place (follow dir names))
    (dir : Place) (names : List String) :
    (t.remove place).walkWith follow' dir names = t.walkWith follow dir names ∨
      EndsAt place (t.walkWith follow dir names) := by
  refine walkWith_relates (R := fun result result' => result' = result ∨ EndsAt place result)
    (fun _ => .inl rfl) hfollow ?_ dir names
  intro dir name rest hhere
  right
  rw [hhere, hplace]
  cases rest with
  | nil => exact .inl rfl
  | cons second rest => exact .inr rfl

theorem walk_remove_file {executable : Bool} {content : Bytes}
    (hplace : t.entryAt place = some (.file executable content)) (links : Nat) (dir : Place)
    (names : List String) :
    (t.remove place).walk links dir names = t.walk links dir names ∨
      EndsAt place (t.walk links dir names) := by
  induction links generalizing dir names with
  | zero => exact walkWith_remove_file hplace (fun _ _ => .inl rfl) dir names
  | succ links ih => exact walkWith_remove_file hplace ih dir names

theorem locate_remove_file {executable : Bool} {content : Bytes}
    (hplace : t.entryAt place = some (.file executable content)) (workingDir : Place) (p : Path) :
    (t.remove place).locate workingDir p = t.locate workingDir p ∨
      EndsAt place (t.locate workingDir p) := by
  unfold locate locateText
  split
  · exact .inl rfl
  split
  · exact .inl rfl
  · exact walk_remove_file hplace _ _ _

/-- Nothing is found behind a file, whether it is there or not. -/
theorem ask_remove_file {α : Type} {executable : Bool} {content : Bytes}
    (hplace : t.entryAt place = some (.file executable content)) {f g : Place → Except Errno α}
    (hfg : ∀ q, q ≠ place → g q = f q) (hother : t.locate workingDir p ≠ .ok place) :
    ((t.remove place).locate workingDir p >>= g) = (t.locate workingDir p >>= f) ∨
      (t.locate workingDir p >>= f) = .error .notDirectory := by
  rcases locate_remove_file hplace workingDir p with hsame | hend | hbehind
  · left
    rw [hsame]
    cases hlocate : t.locate workingDir p with
    | error e => rfl
    | ok q => exact hfg q fun hq => hother (hq ▸ hlocate)
  · exact absurd hend hother
  · right
    rw [hbehind]
    rfl

/-! ### Without links -/

/-- A path leads to a directory in which there are no links, or nowhere. -/
def LinkFree (t : FileTree) (workingDir : Place) (p : Path) : Prop :=
  ∀ place, t.locate workingDir p = .ok place →
    ∀ name target, t.entryAt (place ++ [name]) ≠ some (.link target)

namespace LinkFree

theorem of_entries (h : ∀ entry ∈ t.entries, ∀ target, entry.2 ≠ .link target) :
    t.LinkFree workingDir p := by
  intro place _ name target hentry
  rw [entryAt, if_neg (by simp), List.lookup_eq_some_iff] at hentry
  obtain ⟨before, after, heq, -⟩ := hentry
  exact h (place ++ [name], .link target) (by simp [heq]) target rfl

theorem thinned (h : t.LinkFree workingDir p) (htu : Thinned t u) : u.LinkFree workingDir p := by
  intro place hplace name target hentry
  rcases htu.entryAt (place ++ [name]) with hsame | hnone
  · exact h place ((htu.locate workingDir p).ok hplace) name target (hsame ▸ hentry)
  · cases hnone.symm.trans hentry

/-- A name leads to its own place in the directory. -/
theorem locate_child (h : t.LinkFree workingDir p) (hname : IsPlain name) (hp : p.toString ≠ "")
    {q : Place} (hq : t.locate workingDir (p.child name) = .ok q) :
    ∃ place, t.locate workingDir p = .ok place ∧ q = place ++ [name] := by
  obtain ⟨place, hplace, -, entry, hentry, hend⟩ := locate_of_child hname hp hq
  refine ⟨place, hplace, hend.resolve_right ?_⟩
  rintro ⟨target, rfl⟩
  exact h place hplace name target hentry

theorem file_of_isFile (h : t.LinkFree workingDir p) (hname : IsPlain name)
    (hp : p.toString ≠ "") (hfile : t.isFile workingDir (p.child name) = .ok true) :
    ∃ place executable content, t.locate workingDir p = .ok place ∧
      t.entryAt (place ++ [name]) = some (.file executable content) := by
  obtain ⟨place, hplace, hentry⟩ := fileOrLink_of_isFile hname hp hfile
  cases hentry with
  | file executable content hentry => exact ⟨place, executable, content, hplace, hentry⟩
  | link target _ _ _ hentry => exact absurd hentry (h place hplace name target)

variable (h : t.LinkFree workingDir p) (hname : IsPlain name) (hother : IsPlain other)
  (hp : p.toString ≠ "") (hne : other ≠ name)
  (hfile : t.isFile workingDir (p.child name) = .ok true)

include h hname hother hp hne hfile

/-- A walk to another name ends at its own place, if it ends anywhere. -/
theorem ask_unlinked {α : Type} {f : FileTree → Place → Except Errno α}
    (hf : ∀ place q, q ≠ place → f (t.remove place) q = f t q) :
    ((t.unlinked workingDir p name).locate workingDir (p.child other) >>=
        f (t.unlinked workingDir p name)) = (t.locate workingDir (p.child other) >>= f t) ∨
      (t.locate workingDir (p.child other) >>= f t) = .error .notDirectory := by
  by_cases hkept : t.keeps workingDir p name = true
  · rw [unlinked_of_keeps hkept]
    exact .inl rfl
  obtain ⟨place, executable, content, hplace, hentry⟩ := h.file_of_isFile hname hp hfile
  rw [unlinked_of_goes hplace (hentry ▸ rfl) (Bool.eq_false_iff.2 hkept)]
  refine ask_remove_file hentry (hf _) fun hq => ?_
  obtain ⟨place', hplace', hq'⟩ := h.locate_child hother hp hq
  cases hplace.symm.trans hplace'
  exact hne (List.singleton_inj.1 (List.append_cancel_left hq')).symm

theorem status_unlinked :
    (t.unlinked workingDir p name).status workingDir (p.child other) =
        t.status workingDir (p.child other) ∨
      t.status workingDir (p.child other) = .error .notDirectory :=
  h.ask_unlinked hname hother hp hne hfile (f := statusAt) fun place q hq => by
    rw [statusAt, statusAt, t.entryAt_remove_other hq]

/-- Whether there is a file of another name stays the same. -/
theorem isFile_unlinked :
    (t.unlinked workingDir p name).isFile workingDir (p.child other) =
      t.isFile workingDir (p.child other) := by
  rcases h.status_unlinked hname hother hp hne hfile with hsame | hbehind
  · simp only [isFile, hsame]
  · have hnone : t.isFile workingDir (p.child other) = .ok false := by
      rw [isFile, hbehind]
      split <;> rfl
    rw [hnone]
    exact (Thinned.unlinked t workingDir p name).isFile_false hnone

/-- A file of another name keeps its content. -/
theorem read_unlinked :
    (t.unlinked workingDir p name).read workingDir (p.child other) =
        t.read workingDir (p.child other) ∨
      t.read workingDir (p.child other) = .error .notDirectory :=
  h.ask_unlinked hname hother hp hne hfile (f := readAt) fun place q hq => by
    rw [readAt, readAt, t.entryAt_remove_other hq, denies_remove]

theorem isEmptyFile_unlinked :
    (t.unlinked workingDir p name).isEmptyFile workingDir (p.child other) =
      t.isEmptyFile workingDir (p.child other) := by
  rcases h.status_unlinked hname hother hp hne hfile with hsame | hbehind
  · simp only [isEmptyFile, hsame]
  · have hnone : t.isEmptyFile workingDir (p.child other) = false := by
      rw [isEmptyFile, hbehind]
    rcases (Thinned.unlinked t workingDir p name).isEmptyFile workingDir (p.child other) with
      hsame | hgone
    · exact hsame
    · rw [hgone, hnone]

end LinkFree
end TriplePass.FileTree
