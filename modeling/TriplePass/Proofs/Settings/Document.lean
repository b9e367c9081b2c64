import TriplePass.Settings.Layer
import TriplePass.Proofs.FileTree
import TriplePass.Proofs.Settings.Reading
import TriplePass.Proofs.Text.Strict
import TriplePass.Proofs.Toml.Scan

/-! # Documents of settings

A file that is there holds a table, or a text that is no document, or nothing that can be read at
all. In a table the last of the keys counts that spell one name; the project file's section is a
table of its own in there.
-/
namespace TriplePass

namespace Layer
open Result
variable {t : FileTree} {workingDir : Place} {path : Path} {data : Table} {e : LoadError}

/-- The table that is written in a file; nothing is written in a file that is not there. -/
inductive Written (t : FileTree) (workingDir : Place) (path : Path) : Table → Prop where
  | absent : t.isFile workingDir path = .ok false → Written t workingDir path []
  | document {text : String} {data : Table} : t.isFile workingDir path = .ok true →
      t.read workingDir path = .ok (Utf8.encode text) → Toml.read text.toList = .ok data →
      Written t workingDir path data

def Unparsable (t : FileTree) (workingDir : Place) (path : Path) : Prop :=
  ∃ text : String, t.isFile workingDir path = .ok true ∧
    t.read workingDir path = .ok (Utf8.encode text) ∧
    Toml.read text.toList = .error .malformed

inductive Unreadable (t : FileTree) (workingDir : Place) (path : Path) : LoadError → Prop where
  | notText {content : Bytes} : t.isFile workingDir path = .ok true →
      t.read workingDir path = .ok content → (∀ text, content ≠ Utf8.encode text) →
      Unreadable t workingDir path .notText
  | longInteger {text : String} {digits : Nat} : t.isFile workingDir path = .ok true →
      t.read workingDir path = .ok (Utf8.encode text) →
      Toml.read text.toList = .error (.longInteger digits) →
      Unreadable t workingDir path (.longInteger digits)
  | unanswered {e : Errno} : e.Unanswered → t.isFile workingDir path = .error e →
      Unreadable t workingDir path (.system e)
  | denied : t.isFile workingDir path = .ok true → t.read workingDir path = .error .denied →
      Unreadable t workingDir path (.system .denied)

theorem readDocument_isFile {content : Bytes} (hfile : t.isFile workingDir path = .ok true)
    (hread : t.read workingDir path = .ok content) :
    readDocument t workingDir path = parse path content := by
  simp only [readDocument, hfile, hread]
  rfl

theorem Written.readDocument (h : Written t workingDir path data) :
    readDocument t workingDir path = .ok (normalised data) := by
  cases h with
  | absent hfile =>
    simp only [Layer.readDocument, hfile]
    rfl
  | document hfile hread hdata =>
    simp only [readDocument_isFile hfile hread, parse, Utf8.decode?_encode, hdata]

theorem Written.unique {other : Table} (h : Written t workingDir path data)
    (ho : Written t workingDir path other) : data = other := by
  cases h with
  | absent hfile =>
    cases ho with
    | absent => rfl
    | document hfile' => cases hfile.symm.trans hfile'
  | document hfile hread hdata =>
    cases ho with
    | absent hfile' => cases hfile.symm.trans hfile'
    | document _ hread' hdata' =>
      rw [Utf8.encode_inj (Except.ok.inj (hread.symm.trans hread')), hdata'] at hdata
      exact (Except.ok.inj hdata).symm

theorem Unparsable.readDocument (h : Unparsable t workingDir path) :
    readDocument t workingDir path = .error (.settings (.unparsable path)) := by
  obtain ⟨text, hfile, hread, hdata⟩ := h
  simp only [readDocument_isFile hfile hread, parse, Utf8.decode?_encode, hdata]

theorem Unreadable.readDocument (h : Unreadable t workingDir path e) :
    readDocument t workingDir path = .error e := by
  cases h with
  | notText hfile hread htext =>
    simp only [readDocument_isFile hfile hread, parse, Utf8.decode?_eq_none_iff.2 htext]
  | longInteger hfile hread hdata =>
    simp only [readDocument_isFile hfile hread, parse, Utf8.decode?_encode, hdata]
  | unanswered _ hfile =>
    simp only [Layer.readDocument, hfile]
    rfl
  | denied hfile hread =>
    simp only [Layer.readDocument, hfile, hread]
    rfl

/-- A file has its table, or is no document, or is not readable at all. -/
theorem written_or (t : FileTree) (workingDir : Place) (path : Path) :
    (∃ data, Written t workingDir path data) ∨ Unparsable t workingDir path ∨
      ∃ e, Unreadable t workingDir path e := by
  cases hfile : t.isFile workingDir path with
  | error e =>
    exact .inr (.inr ⟨_, .unanswered (FileTree.isFile_error hfile) hfile⟩)
  | ok file =>
    cases file with
    | false => exact .inl ⟨[], .absent hfile⟩
    | true =>
      rcases FileTree.read_of_isFile hfile with hdenied | ⟨content, hread⟩
      · exact .inr (.inr ⟨_, .denied hfile hdenied⟩)
      cases hdecode : Utf8.decode? content with
      | none =>
        exact .inr (.inr ⟨_, .notText hfile hread (Utf8.decode?_eq_none_iff.1 hdecode)⟩)
      | some chars =>
        obtain ⟨text, rfl⟩ : ∃ text : String, chars = text.toList :=
          ⟨String.ofList chars, by rw [String.toList_ofList]⟩
        rw [Utf8.decode?_eq_some_iff.1 hdecode, String.ofList_toList] at hread
        cases hdata : Toml.read text.toList with
        | ok data => exact .inl ⟨data, .document hfile hread hdata⟩
        | error fault =>
          cases fault with
          | malformed => exact .inr (.inl ⟨text, hfile, hread, hdata⟩)
          | longInteger digits => exact .inr (.inr ⟨_, .longInteger hfile hread hdata⟩)

def Readable (t : FileTree) (workingDir : Place) (path : Path) : Prop :=
  t.isFile workingDir path = .ok false ∨ ∃ text : String, t.isFile workingDir path = .ok true ∧
    t.read workingDir path = .ok (Utf8.encode text) ∧ ∀ n, ¬Toml.Oversized text.toList n

theorem Readable.not_unreadable (h : Readable t workingDir path) (e : LoadError) :
    ¬Unreadable t workingDir path e := by
  intro hun
  rcases h with habsent | ⟨text, hfile, hread, hshort⟩
  · cases hun with
    | notText hfile _ _ | longInteger hfile _ _ | unanswered _ hfile | denied hfile _ =>
      rw [habsent] at hfile
      cases hfile
  · cases hun with
    | notText _ hread' htext =>
      rw [hread] at hread'
      exact htext text (Except.ok.inj hread').symm
    | longInteger _ hread' hdata =>
      rw [hread] at hread'
      rw [← Utf8.encode_inj (Except.ok.inj hread')] at hdata
      exact hshort _ (Toml.read_longInteger hdata)
    | unanswered _ hfile' =>
      rw [hfile] at hfile'
      cases hfile'
    | denied _ hread' =>
      rw [hread] at hread'
      cases hread'

theorem readDocument_eq_ok : readDocument t workingDir path = .ok data ↔
    ∃ raw, Written t workingDir path raw ∧ normalised raw = data := by
  constructor
  · intro h
    rcases written_or t workingDir path with ⟨raw, hraw⟩ | hunparsable | ⟨e, he⟩
    · exact ⟨raw, hraw, Except.ok.inj (hraw.readDocument.symm.trans h)⟩
    · cases hunparsable.readDocument.symm.trans h
    · cases he.readDocument.symm.trans h
  · rintro ⟨raw, hraw, rfl⟩
    exact hraw.readDocument

/-! ### Spellings -/

/-- The last value under a key that is the name once its dashes are underscores. -/
def lastSpelled (data : Table) (name : String) : Option Value :=
  (data.reverse.find? fun e => underscored e.1 = name).map Prod.snd

theorem get?_normalised (data : Table) : Dictionary.get? (normalised data) = lastSpelled data :=
  funext (Dictionary.get?_rename underscored data)

def entriesOf : Option Value → Option Table
  | some (.table entries) => some entries
  | _ => none

def sectionOf (project : Table) : Table :=
  ((entriesOf (lastSpelled project "tool")).bind fun tool =>
    entriesOf (Dictionary.get? tool "xdmd")).getD []

theorem projectSection_normalised (project : Table) :
    projectSection (normalised project) = normalised (sectionOf project) := by
  have htable (key : String) : tableAt key = fun data => entriesOf (Dictionary.get? data key) := rfl
  unfold projectSection sectionOf
  simp only [htable, get?_normalised]
  cases (entriesOf (lastSpelled project "tool")).bind fun tool =>
    entriesOf (Dictionary.get? tool "xdmd") <;> rfl

end Layer

namespace Settings
open Layer
variable {s c : Settings} {data : Table}

theorem distinct_normalised (data : Table) : Dictionary.Distinct (normalised data) :=
  Dictionary.distinct_rename _ _

theorem update_normalised : s.update (normalised data) = .ok c ↔
    Valid (lastSpelled data) ∧ ∀ f, c.get f = (given (lastSpelled data) f).getD (s.get f) := by
  rw [update_eq_ok (distinct_normalised data), get?_normalised]

theorem exists_given (hvalid : Valid (lastSpelled data)) (s : Settings) :
    ∃ c : Settings, ∀ f, c.get f = (given (lastSpelled data) f).getD (s.get f) := by
  rw [← get?_normalised] at hvalid ⊢
  obtain ⟨c, -, hfields⟩ := exists_update (distinct_normalised data) hvalid s
  exact ⟨c, hfields⟩

end Settings
end TriplePass
