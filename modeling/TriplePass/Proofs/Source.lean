import TriplePass.Proofs.Text.Content
import TriplePass.Source

/-! # A source is classified by its bytes

What is said of a source can be read off its bytes: a signature stands there or it does not, and the
keyword stands there with nothing on either side that continues a word. What stands on a side is
decoded from the bytes of that side alone. Line endings of any kind, and bytes that no character
has, only keep apart what is in front of them and what is behind.
-/
namespace TriplePass.Source
open Utf8 (encode decode)
variable {t : FileTree} {workingDir : Place} {dir : Path} {arg : String} {content : Bytes}

theorem printable_signature {s : String} (hs : s ∈ signatures) :
    s ≠ "" ∧ Text.Printable s.toList := by
  have hall : ∀ s ∈ signatures, s ≠ "" ∧ Text.Printable s.toList := by decide
  exact hall s hs

theorem printable_testKeyword : testKeyword ≠ "" ∧ Text.Printable testKeyword.toList := by decide

theorem declaresEntryPoint_iff {text : List Char} :
    declaresEntryPoint text = true ↔ ∃ s ∈ signatures, Text.occursIn s.toList text = true :=
  List.any_eq_true

/-! ### The text and the bytes -/

/-- It does not matter to the classification that line endings are turned into line feeds. -/
theorem ofContent_ok (arg : String) (content : Bytes) :
    ofContent arg (.ok content) = ofText arg (decode content) := by
  have hmain : declaresEntryPoint (Text.ofContent content) = declaresEntryPoint (decode content) := by
    rw [Bool.eq_iff_iff, declaresEntryPoint_iff, declaresEntryPoint_iff]
    refine exists_congr fun s => and_congr_right fun hs => ?_
    obtain ⟨hne, hprintable⟩ := printable_signature hs
    rw [Text.ofContent, Text.occursIn_foldNewlines (by simpa using hne) hprintable.inline]
  have htests : hasTestBlock (Text.ofContent content) = hasTestBlock (decode content) := by
    obtain ⟨hne, hprintable⟩ := printable_testKeyword
    exact Text.hasToken_foldNewlines (by simpa using hne) hprintable.inline _
  rw [ofContent, ofText, hmain, htests]
  rfl

theorem isEntryPoint_iff :
    (ofContent arg (.ok content)).isEntryPoint = true ↔ ∃ s ∈ signatures, encode s <:+: content := by
  rw [ofContent_ok]
  refine declaresEntryPoint_iff.trans (exists_congr fun s => and_congr_right fun hs => ?_)
  obtain ⟨hne, hprintable⟩ := printable_signature hs
  exact Utf8.occursIn_decode hne hprintable

theorem hasTests_iff :
    (ofContent arg (.ok content)).hasTests = true ↔
      ∃ left right, content = left ++ encode testKeyword ++ right ∧
        Text.isEdge (decode left).getLast? = true ∧ Text.isEdge (decode right).head? = true := by
  rw [ofContent_ok]
  exact Utf8.hasToken_decode printable_testKeyword.1 printable_testKeyword.2

/-! ### Either side of a break -/

/-- A source has what the part in front of breaks has, and what the part behind them has. -/
structure Joined (front back s : Source) : Prop where
  isEntryPoint : s.isEntryPoint = (front.isEntryPoint || back.isEntryPoint)
  hasTests : s.hasTests = (front.hasTests || back.hasTests)

theorem joined_of_breaks {breaks : Bytes} (hne : breaks ≠ [])
    (hbreaks : ∀ b ∈ breaks, Utf8.IsBreak b) (arg : String) (front back : Bytes) :
    Joined (ofContent arg (.ok front)) (ofContent arg (.ok back))
      (ofContent arg (.ok (front ++ breaks ++ back))) where
  isEntryPoint := by
    simp only [ofContent_ok]
    refine @Utf8.breaks_split (fun bytes => declaresEntryPoint (decode bytes)) (by decide +kernel)
      ?_ breaks hne hbreaks front back
    intro b hb front back
    rw [Bool.eq_iff_iff, Bool.or_eq_true]
    simp only [declaresEntryPoint_iff, ← exists_or, ← and_or_left]
    refine exists_congr fun s => and_congr_right fun hs => ?_
    obtain ⟨hword, hprintable⟩ := printable_signature hs
    rw [Utf8.occursIn_break hb hword hprintable, Bool.or_eq_true]
  hasTests := by
    simp only [ofContent_ok]
    refine @Utf8.breaks_split (fun bytes => hasTestBlock (decode bytes)) (by decide +kernel)
      ?_ breaks hne hbreaks front back
    intro b hb front back
    exact Utf8.hasToken_break hb printable_testKeyword.1 printable_testKeyword.2 front back

/-! ### What the bytes say -/

structure SaidBy (content : Bytes) (s : Source) : Prop where
  isEntryPoint : s.isEntryPoint = true ↔
    encode "void main(" <:+: content ∨ encode "int main(" <:+: content
  hasTests : s.hasTests = true ↔
    ∃ left right, content = left ++ encode "unittest" ++ right ∧
      (∀ c, (decode left).getLast? = some c → Text.isIdentifier c = false) ∧
      ∀ c, (decode right).head? = some c → Text.isIdentifier c = false

theorem saidBy_ofContent (arg : String) (content : Bytes) :
    SaidBy content (ofContent arg (.ok content)) where
  isEntryPoint := by simp [isEntryPoint_iff, signatures]
  hasTests := by
    simp only [hasTests_iff, Text.isEdge_iff]
    rfl

/-- Whatever bytes a source can be read as, it is classified by them: by the signatures and the
keyword that stand among them, and by the characters next to the keyword, decoded apart. Line
endings and bytes that no character has split a source into parts that are classified one by one. -/
theorem classify_bytes (hnul : (dir.join (Path.ofString arg)).hasNul = false)
    (hread : t.read workingDir (dir.join (Path.ofString arg)) = .ok content) :
    ∃ s, classify? t workingDir dir arg = some s ∧ s.path = arg ∧ SaidBy content s ∧
      ∀ front breaks back, content = front ++ breaks ++ back → breaks ≠ [] →
        (∀ b ∈ breaks, Utf8.IsBreak b) →
          Joined (ofContent arg (.ok front)) (ofContent arg (.ok back)) s := by
  have hclassify : classify? t workingDir dir arg = some (ofContent arg (.ok content)) := by
    simp only [classify?, hnul, hread]
    exact if_neg Bool.false_ne_true
  refine ⟨ofContent arg (.ok content), hclassify, rfl, saidBy_ofContent arg content, ?_⟩
  rintro front breaks back rfl hne hbreaks
  exact joined_of_breaks hne hbreaks arg front back

/-- A lead byte in front of the keyword and a continuation byte behind it are two ill-formed runs,
and the signature is broken off by the end of a line. -/
def damagedSource : Bytes :=
  [0xC3] ++ encode "unittest" ++ ([0xA9, 13, 10] ++ encode "int main" ++ [13] ++ encode "(")

def damagedSourceTree : FileTree where
  entries := [(["a.d"], .file false damagedSource)]

theorem classify_bytes_damaged :
    ((Path.ofString ".").join (Path.ofString "a.d")).hasNul = false ∧
      damagedSourceTree.read [] ((Path.ofString ".").join (Path.ofString "a.d")) =
        .ok damagedSource ∧
      classify? damagedSourceTree [] (Path.ofString ".") "a.d" = some ⟨"a.d", false, true⟩ := by
  have hnul : ((Path.ofString ".").join (Path.ofString "a.d")).hasNul = false := by decide +kernel
  have hread : damagedSourceTree.read [] ((Path.ofString ".").join (Path.ofString "a.d")) =
      .ok damagedSource := by decide +kernel
  obtain ⟨⟨path, main, tests⟩, hclassify, hpath, hsaid, -⟩ := classify_bytes hnul hread
  obtain rfl : path = "a.d" := hpath
  have hmain : main = false := by
    rw [← Bool.not_eq_true, hsaid.isEntryPoint]
    decide +kernel
  have htests : tests = true := by
    refine hsaid.hasTests.2 ⟨[0xC3], _, rfl, ?_, ?_⟩
    · exact Text.isEdge_iff.1 (by decide +kernel)
    · exact Text.isEdge_iff.1 (by decide +kernel)
  rw [hmain, htests] at hclassify
  exact ⟨hnul, hread, hclassify⟩

end TriplePass.Source
