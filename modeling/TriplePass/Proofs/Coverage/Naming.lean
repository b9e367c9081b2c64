import Mathlib.Data.List.Forall2
import TriplePass.Proofs.Coverage.Deletion

/-! # Which listing belongs to which source

The name of a listing has no slash and is not made of points, so it stands for an entry of the
directory in which it is looked for, wherever the source lies. Two sources share a listing exactly
if their names read alike with hyphens for the slashes; sources without hyphens share one only if
they are the same but for a `./` in front.
-/
namespace TriplePass

namespace Path

theorem ofString_plain {name : String} (h : FileTree.IsPlain name) :
    ofString name = ⟨.relative, [name]⟩ := by
  have hname : isName name = true := by simp [isName, h.nonempty, h.point]
  have hanchor : anchorOf name.toList = .relative := by
    unfold anchorOf
    split
    next hchars => exact absurd (hchars ▸ List.mem_cons_self) h.slash
    next hchars => exact absurd (hchars ▸ List.mem_cons_self) h.slash
    next hchars => exact absurd (hchars ▸ List.mem_cons_self) h.slash
    next => rfl
  have hnames : (ofString name).names = [name] := names_of_name h.slash hname
  calc ofString name = ⟨anchorOf name.toList, (ofString name).names⟩ := rfl
    _ = ⟨.relative, [name]⟩ := by rw [hanchor, hnames]

theorem join_plain {name : String} (h : FileTree.IsPlain name) (dir : Path) :
    dir.join (ofString name) = dir.child name := by
  rw [ofString_plain h]
  rfl

end Path

namespace Coverage
open FileTree (IsPlain)
variable {a b : String} {s rest stem : List Char}

/-! ### What a listing is named after -/

def IsUndotted (source rest : List Char) : Prop :=
  source = ['.', '/'] ++ rest ∨ source = rest ∧ ¬['.', '/'] <+: source

/-- `stem` is the source without one `./` in front and without its extension. -/
def IsStem (source stem : List Char) : Prop :=
  IsUndotted source (stem ++ ['.', 'd'])

theorem isUndotted_iff : IsUndotted s rest ↔ withoutDotSlash s = rest := by
  unfold IsUndotted withoutDotSlash
  cases h : Text.dropPrefix? ['.', '/'] s with
  | some behind =>
    have hs := Text.dropPrefix?_eq_some.1 h
    have hprefix : ['.', '/'] <+: s := ⟨behind, hs.symm⟩
    rw [Option.getD_some, hs]
    simp
  | none =>
    have hprefix : ¬['.', '/'] <+: s := by
      rintro ⟨behind, hs⟩
      rw [Text.dropPrefix?_eq_some.2 hs.symm] at h
      cases h
    have hne : s ≠ ['.', '/'] ++ rest := fun hs => hprefix ⟨rest, hs.symm⟩
    rw [Option.getD_none, or_iff_right hne, and_iff_left hprefix]

theorem withoutSuffix_append (stem : List Char) : withoutSuffix (stem ++ ['.', 'd']) = stem := by
  have hdrop : Text.dropPrefix? Source.suffix.toList.reverse (stem ++ ['.', 'd']).reverse =
      some stem.reverse := by
    rw [Text.dropPrefix?_eq_some, List.reverse_append]
    rfl
  simp only [withoutSuffix, hdrop, Option.getD_some, List.reverse_reverse]

theorem listingName_of_stem (h : IsStem a.toList stem) :
    (listingName a).toList = flattened stem ++ ['.', 'l', 's', 't'] := by
  rw [toList_listingName, isUndotted_iff.1 h, withoutSuffix_append]

/-- Taking `./` away leaves the extension of a source as it is. -/
theorem exists_isStem (h : Source.isArgument a = true) : ∃ stem, IsStem a.toList stem := by
  have hsuffix : ['.', 'd'] <:+ a.toList := by
    have hends := (Bool.and_eq_true_iff.1 h).2
    rw [Text.endsWith, List.isSuffixOf_iff_suffix] at hends
    exact hends
  by_cases hprefix : ['.', '/'] <+: a.toList
  · obtain ⟨rest, hrest⟩ := hprefix
    rw [← hrest] at hsuffix ⊢
    have hlong : 2 ≤ rest.length := by
      rcases rest with _ | ⟨c, _ | ⟨d, rest⟩⟩
      · exact absurd hsuffix (by decide)
      · have heq := List.suffix_iff_eq_drop.1 hsuffix
        cases heq
      · exact Nat.le_add_left 2 rest.length
    obtain ⟨stem, rfl⟩ :=
      List.suffix_of_suffix_length_le hsuffix (List.suffix_append ['.', '/'] rest) hlong
    exact ⟨stem, .inl rfl⟩
  · obtain ⟨stem, hstem⟩ := hsuffix
    exact ⟨stem, .inr ⟨hstem.symm, hprefix⟩⟩

/-! ### Names that read alike -/

def ReadAlike (c d : Char) : Prop :=
  c = d ∨ c = '/' ∧ d = '-' ∨ c = '-' ∧ d = '/'

theorem readAlike_iff {c d : Char} :
    ReadAlike c d ↔ (if c = '/' then '-' else c) = if d = '/' then '-' else d := by
  unfold ReadAlike
  by_cases hc : c = '/'
  · by_cases hd : d = '/'
    · simp [hc, hd]
    · simp [hc, hd, Ne.symm hd, eq_comm]
  · by_cases hd : d = '/'
    · simp [hc, hd]
    · simp [hc, hd]

theorem flattened_eq_iff : flattened s = flattened rest ↔ List.Forall₂ ReadAlike s rest := by
  have halike : ReadAlike =
      fun c d => (if c = '/' then '-' else c) = if d = '/' then '-' else d :=
    funext₂ fun _ _ => propext readAlike_iff
  rw [flattened, flattened, ← List.forall₂_eq_eq_eq, List.forall₂_map_left_iff,
    List.forall₂_map_right_iff, halike]

theorem readAlike_eq {l m : List Char} (h : List.Forall₂ ReadAlike l m) (hl : '-' ∉ l)
    (hm : '-' ∉ m) : l = m := by
  induction h with
  | nil => rfl
  | @cons c d l m hcd _ ih =>
    rw [List.mem_cons, not_or] at hl hm
    rw [ih hl.2 hm.2]
    rcases hcd with rfl | ⟨-, rfl⟩ | ⟨rfl, -⟩
    · rfl
    · exact absurd rfl hm.1
    · exact absurd rfl hl.1

theorem listingName_eq_iff {stem' : List Char} (ha : IsStem a.toList stem)
    (hb : IsStem b.toList stem') :
    listingName a = listingName b ↔ List.Forall₂ ReadAlike stem stem' := by
  rw [← String.toList_inj, listingName_of_stem ha, listingName_of_stem hb,
    List.append_cancel_right_eq, flattened_eq_iff]

theorem mem_of_isStem (h : IsStem s stem) {c : Char} (hc : c ∈ stem) : c ∈ s := by
  rcases h with rfl | ⟨rfl, -⟩ <;> simp [hc]

/-- Without hyphens nothing is lost but the `./` in front. -/
theorem listingName_eq_iff_undotted {stem' : List Char} (ha : IsStem a.toList stem)
    (hb : IsStem b.toList stem') (hyphenA : '-' ∉ a.toList) (hyphenB : '-' ∉ b.toList) :
    listingName a = listingName b ↔
      ∃ path, IsUndotted a.toList path ∧ IsUndotted b.toList path := by
  rw [listingName_eq_iff ha hb]
  constructor
  · intro h
    have heq := readAlike_eq h (fun hc => hyphenA (mem_of_isStem ha hc))
      (fun hc => hyphenB (mem_of_isStem hb hc))
    exact ⟨stem ++ ['.', 'd'], ha, heq ▸ hb⟩
  · rintro ⟨path, hpathA, hpathB⟩
    have hstems : stem ++ ['.', 'd'] = stem' ++ ['.', 'd'] := by
      rw [← isUndotted_iff.1 ha, ← isUndotted_iff.1 hb, isUndotted_iff.1 hpathA,
        isUndotted_iff.1 hpathB]
    rw [List.append_cancel_right hstems, ← flattened_eq_iff]

/-! ### The listing in its directory -/

/-- A name that stands for an entry right in a directory, whichever files there are; only where the
directory must not be searched it stands for nothing. -/
structure IsFlat (name : String) : Prop where
  plain : IsPlain name
  extension : listingExtension.toList <:+ name.toList
  join : ∀ dir : Path, dir.join (Path.ofString name) = ⟨dir.anchor, dir.names ++ [name]⟩
  entry : ∀ (t : FileTree) (workingDir place : Place) (dir : String),
    t.locate workingDir (Path.ofString dir) = .ok place →
      t.entry? workingDir ((Path.ofString dir).join (Path.ofString name)).toString =
        if t.denies place .search then none else t.entryAt (place ++ [name])

theorem isFlat_listingName (source : String) : IsFlat (listingName source) where
  plain := isPlain_listingName source
  extension := List.isSuffixOf_iff_suffix.1 (endsWith_listingName source)
  join := Path.join_plain (isPlain_listingName source)
  entry := by
    intro t workingDir place dir hplace
    rw [Path.join_plain (isPlain_listingName source)]
    exact FileTree.entry?_child (isPlain_listingName source) (Path.toString_ofString_ne_empty dir)
      hplace

/-- Every source has a listing right in the directory that is surveyed. Sources share it exactly if
what is left of them without a `./` in front and the extension at the end reads alike, hyphens and
slashes being the same; without hyphens, exactly if they are the same but for a `./` in front. -/
theorem listingName_flat_unambiguous :
    (∀ source, IsFlat (listingName source)) ∧
      ∀ a b, Source.isArgument a = true → Source.isArgument b = true →
        (∃ stemA stemB, IsStem a.toList stemA ∧ IsStem b.toList stemB ∧
          (listingName a = listingName b ↔ List.Forall₂ ReadAlike stemA stemB)) ∧
        ('-' ∉ a.toList → '-' ∉ b.toList →
          (listingName a = listingName b ↔
            ∃ path, IsUndotted a.toList path ∧ IsUndotted b.toList path)) := by
  refine ⟨isFlat_listingName, fun a b ha hb => ?_⟩
  obtain ⟨stemA, hstemA⟩ := exists_isStem ha
  obtain ⟨stemB, hstemB⟩ := exists_isStem hb
  exact ⟨⟨stemA, stemB, hstemA, hstemB, listingName_eq_iff hstemA hstemB⟩,
    listingName_eq_iff_undotted hstemA hstemB⟩

def sharedTree : FileTree where
  entries := [(["w"], .directory), (["w", "src-x.lst"], .file false [])]

theorem listingName_flat_unambiguous_dotted :
    Source.isArgument "./src/x.d" = true ∧ Source.isArgument "src/x.d" = true ∧
      '-' ∉ "./src/x.d".toList ∧ '-' ∉ "src/x.d".toList ∧
      (listingName "./src/x.d" = listingName "src/x.d" ↔
        ∃ path, IsUndotted "./src/x.d".toList path ∧ IsUndotted "src/x.d".toList path) ∧
      sharedTree.locate ["w"] (Path.ofString ".") = .ok ["w"] ∧
      sharedTree.entry? ["w"]
          ((Path.ofString ".").join (Path.ofString (listingName "src/x.d"))).toString =
        some (.file false []) := by
  have hplace : sharedTree.locate ["w"] (Path.ofString ".") = .ok ["w"] := by decide +kernel
  obtain ⟨hflat, hshared⟩ := listingName_flat_unambiguous
  have hentry := (hflat "src/x.d").entry sharedTree ["w"] ["w"] "." hplace
  refine ⟨by decide, by decide, by decide, by decide,
    (hshared "./src/x.d" "src/x.d" (by decide) (by decide)).2 (by decide) (by decide), hplace, ?_⟩
  rw [hentry]
  decide

/-- A hyphen of one source may be a slash of the other. -/
example : listingName "src-x.d" = listingName "src/x.d" := by decide

end Coverage
end TriplePass
