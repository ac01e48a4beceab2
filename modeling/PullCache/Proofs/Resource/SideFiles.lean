import PullCache.Resource
/-!
# Proofs.Resource.SideFiles

Categories of side files. A checksum or a signature is named like the file it belongs to, with an
ending after the name, and it has side files of its own. It should age as its file does, but the two
go by different rules: a file is an index if it has one of certain names, and a side file belongs to
the indexes if `metadata` occurs in its name. So the file alone among its side files can be of another
category (`side_files_follow_iff`): `Release` is an index and `Release.asc` is not, and
`metadata.jar.asc` counts as one although `metadata.jar` does not.
-/

namespace PullCache.Category

variable {path : String} {part name ending : List Char} {endings : List String}

/-! ## Names of files -/

/-- A name has a part exactly if the part stands somewhere in it. -/
theorem hasPart_iff (part cs : List Char) : hasPart part cs = true ↔ part <:+: cs := by
  induction cs with
  | nil => simp [hasPart]
  | cons c rest ih => simp [hasPart, ih, List.infix_cons_iff]

/-- An ending without a slash comes after the name of the file. -/
theorem fileName_append (path : List Char) (h : '/' ∉ ending) :
    fileName (path ++ ending) = fileName path ++ ending := by
  have hkept : ∀ c ∈ ending.reverse, (c != '/') = true := by
    intro c hc
    rw [bne_iff_ne]
    rintro rfl
    exact h (List.mem_reverse.mp hc)
  simp [fileName, List.takeWhile_append_of_pos hkept]

/-- A text without a dot does not reach past one. -/
theorem prefix_append_dot_iff (hdot : '.' ∉ part) :
    part <+: name ++ '.' :: ending ↔ part <+: name := by
  induction name generalizing part with
  | nil =>
    cases part with
    | nil => simp
    | cons c rest =>
      have hne : c ≠ '.' := fun hc => hdot (hc ▸ List.mem_cons_self)
      simp [List.cons_prefix_cons, hne]
  | cons d name ih =>
    cases part with
    | nil => simp
    | cons c rest =>
      have hrest : '.' ∉ rest := fun hmem => hdot (List.mem_cons_of_mem c hmem)
      simp [List.cons_prefix_cons, ih hrest]

/-- It occurs before the dot or after it. -/
theorem infix_append_dot_iff (hdot : '.' ∉ part) (hne : part ≠ []) :
    part <:+: name ++ '.' :: ending ↔ part <:+: name ∨ part <:+: ending := by
  induction name with
  | nil =>
    have hfirst : part <+: [] ++ '.' :: ending ↔ part <+: [] := prefix_append_dot_iff hdot
    simp only [List.nil_append] at hfirst ⊢
    simp [List.infix_cons_iff, hfirst, hne]
  | cons c name ih =>
    have hfirst : part <+: c :: name ++ '.' :: ending ↔ part <+: c :: name :=
      prefix_append_dot_iff hdot
    simp only [List.cons_append] at hfirst ⊢
    rw [List.infix_cons_iff, List.infix_cons_iff, hfirst, ih, or_assoc]

/-! ## Endings of side files -/

/-- What marks the side files of indexes. -/
def mark : List Char := "metadata".toList

/-- The name ends as those of side files do. -/
def EndsAsSide (name : List Char) : Prop :=
  ∃ suffix ∈ sideSuffixes, suffix.toList <:+ name

/-- The name is one of those that indexes have. -/
def NamesIndex (name : List Char) : Prop :=
  ∃ known ∈ indexNames, known.toList = name

/-- A path is metadata by its file name alone. -/
theorem classify_eq_metadata_iff (path : String) : classify path = .metadata ↔
    NamesIndex (fileName path.toList) ∨
      EndsAsSide (fileName path.toList) ∧ mark <:+: fileName path.toList := by
  have hbranch : ∀ b : Bool, (if b then metadata else content) = metadata ↔ b = true := by decide
  rw [classify, hbranch, Bool.or_eq_true, Bool.and_eq_true, List.any_eq_true, List.any_eq_true,
    hasPart_iff]
  unfold NamesIndex EndsAsSide mark
  simp only [List.isSuffixOf_iff_suffix, beq_iff_eq]

/-- An ending is a dot and a word that is neither part of a path nor of the mark. -/
theorem dot_of_ending {suffix : String} (h : suffix ∈ sideSuffixes) :
    ∃ word, suffix.toList = '.' :: word ∧ '/' ∉ word ∧ ¬ mark <:+: word := by
  have hshape : ∀ s ∈ sideSuffixes, s.toList = '.' :: s.toList.tail ∧ '/' ∉ s.toList.tail ∧
      hasPart mark s.toList.tail = false := by
    decide +kernel
  obtain ⟨hdot, hslash, hnone⟩ := hshape suffix h
  rw [← Bool.not_eq_true, hasPart_iff] at hnone
  exact ⟨_, hdot, hslash, hnone⟩

/-- No ending begins a new segment. -/
theorem slash_not_mem_ending {suffix : String} (h : suffix ∈ sideSuffixes) :
    '/' ∉ suffix.toList := by
  obtain ⟨word, hword, hslash, -⟩ := dot_of_ending h
  simp [hword, hslash]

/-- The endings do not bring the mark, nor make it out of what is before them. -/
theorem mark_append_iff {suffix : String} (h : suffix ∈ sideSuffixes) (name : List Char) :
    mark <:+: name ++ suffix.toList ↔ mark <:+: name := by
  obtain ⟨word, hword, -, hnone⟩ := dot_of_ending h
  rw [hword, infix_append_dot_iff (by decide +kernel) (by decide +kernel), or_iff_left hnone]

/-- No index is named like a side file. -/
theorem EndsAsSide.not_namesIndex (h : EndsAsSide name) : ¬ NamesIndex name := by
  have hnone : ∀ s ∈ sideSuffixes, ∀ known ∈ indexNames,
      s.toList.isSuffixOf known.toList = false := by
    decide +kernel
  obtain ⟨suffix, hsuffix, hends⟩ := h
  intro ⟨known, hknown, hname⟩
  rw [← hname, ← List.isSuffixOf_iff_suffix, hnone suffix hsuffix known hknown] at hends
  exact absurd hends Bool.false_ne_true

/-- The only index with the mark in its name. -/
def markedIndex : List Char := "maven-metadata.xml".toList

theorem namesIndex_markedIndex : NamesIndex markedIndex :=
  ⟨_, List.mem_cons_self, rfl⟩

theorem mark_infix_markedIndex : mark <:+: markedIndex := by
  rw [← hasPart_iff]
  decide +kernel

/-- Only one name of an index contains the mark of side files. -/
theorem NamesIndex.eq_of_mark (h : NamesIndex name) (hmark : mark <:+: name) :
    name = markedIndex := by
  have honly : ∀ known ∈ indexNames,
      hasPart mark known.toList = true → known.toList = markedIndex := by
    decide +kernel
  obtain ⟨known, hknown, rfl⟩ := h
  exact honly known hknown ((hasPart_iff mark known.toList).mpr hmark)

/-! ## Side files of side files -/

/-- The path of a side file: endings stand after the path, each for the side file of what is before
it. -/
def sidePath (path : String) (endings : List String) : String :=
  path ++ String.join endings

/-- Endings go to the file name. -/
theorem fileName_sidePath (path : String) (h : ∀ e ∈ endings, e ∈ sideSuffixes) :
    fileName (sidePath path endings).toList =
      fileName path.toList ++ endings.flatMap String.toList := by
  have hslash : '/' ∉ endings.flatMap String.toList := by
    intro hmem
    obtain ⟨e, he, hin⟩ := List.mem_flatMap.mp hmem
    exact slash_not_mem_ending (h e he) hin
  rw [sidePath, String.toList_append, String.toList_join, fileName_append _ hslash]

/-- Endings bring no mark and take none. -/
theorem mark_endings_iff (h : ∀ e ∈ endings, e ∈ sideSuffixes) (name : List Char) :
    mark <:+: name ++ endings.flatMap String.toList ↔ mark <:+: name := by
  induction endings generalizing name with
  | nil => simp
  | cons e rest ih =>
    rw [List.flatMap_cons, ← List.append_assoc, ih (fun e' he' => h e' (List.mem_cons_of_mem e he')),
      mark_append_iff (h e List.mem_cons_self)]

/-- A name with endings ends as a side file. -/
theorem endsAsSide_endings (hne : endings ≠ []) (h : ∀ e ∈ endings, e ∈ sideSuffixes)
    (name : List Char) : EndsAsSide (name ++ endings.flatMap String.toList) := by
  obtain ⟨before, last, rfl⟩ := (List.eq_nil_or_concat endings).resolve_left hne
  refine ⟨last, h last (by simp), ?_⟩
  simp [← List.append_assoc]

/-- A side file belongs to the indexes just if the mark occurs in the name of its file. -/
theorem classify_sidePath_iff (path : String) (hne : endings ≠ [])
    (h : ∀ e ∈ endings, e ∈ sideSuffixes) :
    classify (sidePath path endings) = .metadata ↔ mark <:+: fileName path.toList := by
  have hends := endsAsSide_endings hne h (fileName path.toList)
  rw [classify_eq_metadata_iff, fileName_sidePath path h, mark_endings_iff h,
    or_iff_right hends.not_namesIndex, and_iff_right hends]

theorem eq_iff_metadata_iff (a b : Category) : a = b ↔ (a = .metadata ↔ b = .metadata) := by
  cases a <;> cases b <;> simp

/-- **Side files.** A side file, and any side file of a side file, belongs to the indexes just if
`metadata` occurs in the name of the file.

* So all side files of a side file are of its category.
* A file and its side files are of one category exactly if the file is named `maven-metadata.xml`, or
  is not named as an index and, in case `metadata` occurs in its name, is a side file itself. -/
theorem side_files_follow_iff (path : String) (endings : List String) (hne : endings ≠ [])
    (h : ∀ e ∈ endings, e ∈ sideSuffixes) :
    (classify (sidePath path endings) = .metadata ↔ mark <:+: fileName path.toList) ∧
    (∀ more, (∀ e ∈ more, e ∈ sideSuffixes) →
      classify (sidePath path (endings ++ more)) = classify (sidePath path endings)) ∧
    (classify (sidePath path endings) = classify path ↔
      fileName path.toList = markedIndex ∨
        ¬ NamesIndex (fileName path.toList) ∧
          (mark <:+: fileName path.toList → EndsAsSide (fileName path.toList))) := by
  have hside := classify_sidePath_iff path hne h
  refine ⟨hside, fun more hmore => ?_, ?_⟩
  · have hall : ∀ e ∈ endings ++ more, e ∈ sideSuffixes := by
      simpa [or_imp, forall_and] using ⟨h, hmore⟩
    rw [eq_iff_metadata_iff, hside, classify_sidePath_iff path (by simp [hne]) hall]
  · rw [eq_iff_metadata_iff, hside, classify_eq_metadata_iff]
    constructor
    · intro hsame
      -- An index with the mark in its name is the one exception: its side files follow it anyway.
      by_cases hindex : NamesIndex (fileName path.toList)
      · exact .inl (hindex.eq_of_mark (hsame.mpr (.inl hindex)))
      · exact .inr ⟨hindex, fun hmark => ((hsame.mp hmark).resolve_left hindex).1⟩
    · rintro (hname | ⟨hindex, hends⟩)
      · simp [hname, namesIndex_markedIndex, mark_infix_markedIndex]
      · exact ⟨fun hmark => .inr ⟨hends hmark, hmark⟩, fun hor => (hor.resolve_left hindex).2⟩

/-- The checksum of a signature is of the category of the signature, also in a directory with the name
of an index. -/
theorem side_files_of_signature :
    (∀ e ∈ [".sha1", ".md5"], e ∈ sideSuffixes) ∧
    classify (sidePath "Release/lib-metadata.jar.asc" [".sha1", ".md5"]) =
      classify "Release/lib-metadata.jar.asc" := by
  have hsides : ∀ e ∈ [".sha1", ".md5"], e ∈ sideSuffixes := by decide
  have hname : fileName "Release/lib-metadata.jar.asc".toList = "lib-metadata.jar.asc".toList := by
    decide +kernel
  have hindex : ¬ NamesIndex "lib-metadata.jar.asc".toList := by
    unfold NamesIndex
    decide +kernel
  have hends : EndsAsSide "lib-metadata.jar.asc".toList := by
    unfold EndsAsSide
    decide +kernel
  have h := side_files_follow_iff "Release/lib-metadata.jar.asc" [".sha1", ".md5"] (by decide) hsides
  rw [hname] at h
  exact ⟨hsides, h.2.2.mpr (.inr ⟨hindex, fun _ => hends⟩)⟩

/-- The signature of an index does not age as the index does, and the checksum of an artifact can age
as an index. -/
theorem side_files_apart :
    classify "dists/stable/Release" = .metadata ∧
    classify (sidePath "dists/stable/Release" [".asc"]) = .content ∧
    classify "org/acme/metadata.jar" = .content ∧
    classify (sidePath "org/acme/metadata.jar" [".sha1"]) = .metadata ∧
    ¬ ∀ path, ∀ s ∈ sideSuffixes, classify (path ++ s) = .metadata ↔ classify path = .metadata := by
  have hindex : classify "dists/stable/Release" = .metadata := by decide +kernel
  have hside : classify ("dists/stable/Release" ++ ".asc") = .content := by decide +kernel
  refine ⟨hindex, by decide +kernel, by decide +kernel, by decide +kernel, fun hfollow => ?_⟩
  have hsame := (hfollow "dists/stable/Release" ".asc" (by decide)).mpr hindex
  exact Category.noConfusion (hside.symm.trans hsame)

end PullCache.Category
