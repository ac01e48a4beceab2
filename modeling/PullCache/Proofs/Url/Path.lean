import PullCache.Proofs.Text.Split
import PullCache.Url.Parse
/-!
# Proofs.Url.Path

The paths of web addresses. Reading one gives a path of at least one segment, and no segment holds a
slash (`path_of_parse`), so the text of a path says exactly what its segments are: a path goes on
below another one, as a text, exactly if it does as a list of segments (`text_below_iff`).
-/

namespace PullCache

open Text

/-! ## The text of a path -/

/-- Segments of which none holds a slash. -/
def SlashFree (segments : List String) : Prop :=
  ∀ segment ∈ segments, '/' ∉ segment.toList

/-- Segments are written with a slash before each of them. -/
theorem UrlPath.text_segments {list : List String} (h : list ≠ []) :
    (UrlPath.segments list).text = "/" ++ "/".intercalate list := by
  cases list with
  | nil => contradiction
  | cons first rest => rfl

/-- A last segment comes after a slash. -/
theorem UrlPath.text_append_singleton (front : List String) (last : String) :
    (UrlPath.segments (front ++ [last])).text = (UrlPath.segments front).text ++ "/" ++ last := by
  rw [UrlPath.text_segments (by simp)]
  by_cases hfront : front = []
  · subst hfront
    simp [UrlPath.text]
  · rw [UrlPath.text_segments hfront, String.intercalate_append_of_ne_nil hfront (by simp)]
    simp [String.append_assoc]

/-- The segments of a path can be read off its text. -/
theorem splitOn_text {list : List String} (hne : list ≠ []) (h : SlashFree list) :
    splitOn (· == '/') ("/".intercalate list).toList = list.map String.toList := by
  rw [String.toList_intercalate]
  refine splitOn_intercalate (by simpa using hne) ?_ (by decide)
  intro piece hpiece c hc
  obtain ⟨segment, hsegment, rfl⟩ := List.mem_map.mp hpiece
  rw [beq_eq_false_iff_ne]
  rintro rfl
  exact h segment hsegment hc

/-- A path continues the text of a folder and a slash exactly if it has more segments after those of
the folder. -/
theorem text_below_iff {folder list : List String} (hfolder : folder ≠ []) (hlist : list ≠ [])
    (hffree : SlashFree folder) (hlfree : SlashFree list) :
    (∃ rest, (UrlPath.segments list).text = (UrlPath.segments folder).text ++ "/" ++ rest) ↔
      ∃ more, more ≠ [] ∧ list = folder ++ more := by
  rw [UrlPath.text_segments hlist, UrlPath.text_segments hfolder]
  constructor
  · rintro ⟨rest, h⟩
    have htext : ("/".intercalate list).toList =
        ("/".intercalate folder).toList ++ '/' :: rest.toList := by
      have := congrArg String.toList h
      simpa using this
    have hpieces := splitOn_text hlist hlfree
    rw [htext, splitOn_append_cons _ _ (by decide), splitOn_text hfolder hffree] at hpieces
    refine ⟨(splitOn (· == '/') rest.toList).map String.ofList, by simp [splitOn_ne_nil], ?_⟩
    have := congrArg (List.map String.ofList) hpieces.symm
    simpa using this
  · rintro ⟨more, hmore, rfl⟩
    exact ⟨"/".intercalate more,
      by rw [String.intercalate_append_of_ne_nil hfolder hmore]; simp [String.append_assoc]⟩

/-! ## Reading a web address -/

namespace Url

/-- Whatever is added, a path has a segment. -/
theorem addSegments_ne_nil {before : List String} {pieces : List (List Char)} (h : pieces ≠ []) :
    addSegments before pieces ≠ [] := by
  induction pieces generalizing before with
  | nil => contradiction
  | cons piece rest ih =>
    cases rest with
    | nil =>
      rw [addSegments]
      split
      · simp
      · split <;> simp
    | cons next more =>
      rw [addSegments]
      · split
        · exact ih (by simp)
        · split <;> exact ih (by simp)
      · simp

theorem slashFree_append {xs ys : List String} (hxs : SlashFree xs) (hys : SlashFree ys) :
    SlashFree (xs ++ ys) := by
  intro segment hsegment
  obtain h | h := List.mem_append.mp hsegment
  · exact hxs segment h
  · exact hys segment h

theorem slashFree_dropLast {xs : List String} (hxs : SlashFree xs) : SlashFree xs.dropLast :=
  fun segment h => hxs segment (List.dropLast_subset xs h)

theorem slashFree_singleton_empty : SlashFree [""] := by
  simp [SlashFree]

/-- An encoded piece without slashes is a segment without slashes. -/
theorem slashFree_encode {inSet : Char → Bool} {piece : List Char} (h : '/' ∉ piece) :
    SlashFree [String.ofList (Percent.encode inSet piece)] := by
  intro segment hsegment
  rw [List.mem_singleton.mp hsegment, String.toList_ofList]
  exact Percent.slash_not_mem_encode h

/-- Pieces without slashes make segments without slashes. -/
theorem slashFree_addSegments {before : List String} {pieces : List (List Char)}
    (hbefore : SlashFree before) (hpieces : ∀ piece ∈ pieces, '/' ∉ piece) :
    SlashFree (addSegments before pieces) := by
  induction pieces generalizing before with
  | nil => exact hbefore
  | cons piece rest ih =>
    have hpiece := hpieces piece List.mem_cons_self
    have hrest : ∀ piece ∈ rest, '/' ∉ piece := fun p hp =>
      hpieces p (List.mem_cons_of_mem piece hp)
    cases rest with
    | nil =>
      rw [addSegments]
      split
      · exact slashFree_append (slashFree_dropLast hbefore) slashFree_singleton_empty
      · split
        · exact slashFree_append hbefore slashFree_singleton_empty
        · exact slashFree_append hbefore (slashFree_encode hpiece)
    | cons next more =>
      rw [addSegments]
      · split
        · exact ih (slashFree_dropLast hbefore) hrest
        · split
          · exact ih hbefore hrest
          · exact ih (slashFree_append hbefore (slashFree_encode hpiece)) hrest
      · simp

/-- A path read by the rules of the common schemes has a segment, and slashes only between
segments. -/
theorem parsePath_special (cs : List Char) :
    ∃ list, parsePath true cs = .segments list ∧ list ≠ [] ∧ SlashFree list := by
  have hsegments : ∀ cs, parseSegments true cs ≠ [] ∧ SlashFree (parseSegments true cs) := by
    intro cs
    refine ⟨addSegments_ne_nil (splitOn_ne_nil cs), slashFree_addSegments (by simp [SlashFree]) ?_⟩
    intro piece hpiece hslash
    have := not_isSep_of_mem_splitOn hpiece '/' hslash
    simp [isSlash] at this
  cases cs with
  | nil => exact ⟨[""], rfl, by simp, slashFree_singleton_empty⟩
  | cons c rest =>
    rw [parsePath]
    split
    · exact ⟨_, rfl, hsegments _⟩
    · exact ⟨_, rfl, hsegments _⟩

/-- After `//` the scheme is as given, and the path is read by the rules of the scheme. -/
theorem path_of_parseAuthority {scheme : String} {cs : List Char} {u : Url}
    (h : parseAuthority scheme cs = .ok u) :
    u.scheme = scheme ∧ ∃ rest, u.path = parsePath (isSpecial scheme) rest := by
  unfold parseAuthority at h
  simp only [bind, Except.bind, pure, Except.pure, throw, throwThe, MonadExceptOf.throw] at h
  split at h
  · contradiction
  · split at h
    · contradiction
    · split at h
      · contradiction
      · split at h
        · contradiction
        · split at h
          · contradiction
          · cases h
            exact ⟨rfl, _, rfl⟩

/-- A scheme that is read is kept. -/
theorem scheme_of_parseOther {scheme : String} {cs : List Char} {u : Url}
    (h : parseOther scheme cs = .ok u) : u.scheme = scheme := by
  unfold parseOther at h
  split at h
  · exact (path_of_parseAuthority h).1
  · cases h
    rfl

/-- A file URL has the scheme of files. -/
theorem scheme_of_parseFile {cs : List Char} {u : Url} (h : parseFile cs = .ok u) :
    u.scheme = "file" := by
  unfold parseFile at h
  simp only [bind, Except.bind, pure, Except.pure] at h
  split at h
  · split at h
    · cases h
      rfl
    · split at h
      · contradiction
      · cases h
        rfl
  · cases h
    rfl

/-- The schemes of the web are special. -/
theorem isSpecial_of_web {scheme : String} (h : scheme = "http" ∨ scheme = "https") :
    isSpecial scheme = true := by
  obtain rfl | rfl := h <;> decide

/-- A web address says, after its scheme and any number of slashes, where it leads. -/
theorem parse_web {s : String} {u : Url} (h : parse s = .ok u)
    (hscheme : u.scheme = "http" ∨ u.scheme = "https") :
    ∃ rest, scheme? (cleaned s.toList) = some (u.scheme, rest) ∧
      parseAuthority u.scheme (rest.dropWhile (isSlash true)) = .ok u := by
  unfold parse at h
  cases hs : scheme? (cleaned s.toList) with
  | none => simp only [hs] at h; contradiction
  | some found =>
    obtain ⟨scheme, rest⟩ := found
    simp only [hs] at h
    by_cases hfile : (scheme == "file") = true
    · rw [if_pos hfile] at h
      have := scheme_of_parseFile h
      rw [this] at hscheme
      simp at hscheme
    · rw [if_neg hfile] at h
      by_cases hspecial : isSpecial scheme = true
      · rw [if_pos hspecial] at h
        obtain ⟨rfl, -⟩ := path_of_parseAuthority h
        exact ⟨rest, rfl, h⟩
      · rw [if_neg hspecial] at h
        have := scheme_of_parseOther h
        rw [this] at hscheme
        exact absurd (isSpecial_of_web hscheme) hspecial

/-- Text with a scheme of the web is read as an authority, whatever slashes stand before it. -/
theorem parse_of_scheme? {s scheme : String} {rest : List Char}
    (h : scheme? (cleaned s.toList) = some (scheme, rest))
    (hscheme : scheme = "http" ∨ scheme = "https") :
    parse s = parseAuthority scheme (rest.dropWhile (isSlash true)) := by
  have hfile : (scheme == "file") = false := by
    obtain rfl | rfl := hscheme <;> decide
  simp only [parse, h, hfile, Bool.false_eq_true, if_false, isSpecial_of_web hscheme, if_true]

/-- The path of a web address has a segment, and slashes only between segments. -/
theorem path_of_parse {s : String} {u : Url} (h : parse s = .ok u)
    (hscheme : u.scheme = "http" ∨ u.scheme = "https") :
    ∃ list, u.path = .segments list ∧ list ≠ [] ∧ SlashFree list := by
  obtain ⟨rest, -, hauthority⟩ := parse_web h hscheme
  obtain ⟨-, rest, hpath⟩ := path_of_parseAuthority hauthority
  rw [hpath, isSpecial_of_web hscheme]
  exact parsePath_special rest

end Url

end PullCache
