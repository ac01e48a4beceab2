import PullCache.Proofs.Remote.Containment
import PullCache.Proofs.Resource
import PullCache.Proofs.Url.Normal
/-!
# Proofs.Remote.Faithful

What the URL of a resource says. The pieces of its path and its parameters go through two encoders, and
both can be undone: the last segments of the URL are the pieces, and its query is that of the remote
with the parameters after it. Besides, such a URL is in normal form (`normal_urlOf`), so its text is read
as that URL again, and two resources are never fetched with the same text (`resolve_faithful`).
-/

namespace PullCache

open Text

variable {c : Char} {cs piece : List Char} {pieces : List (List Char)} {list : List String}

namespace Url

/-! ## Segments -/

/-- What a segment of a path says. -/
def segmentText? (segment : String) : Option String :=
  utf8? (Percent.decode (utf8 segment))

/-- A segment is read back as it was written. -/
theorem segmentText?_escaped (piece : List Char) :
    segmentText? (escaped (Percent.segment true) piece) = some (String.ofList piece) := by
  have hdecode : Percent.decode (utf8 (escaped (Percent.segment true) piece)) = Utf8.encode piece := by
    rw [utf8, escaped, String.toList_ofList, Percent.decode_encode (by decide)]
  rw [segmentText?, hdecode, utf8?, Utf8.decode?_encode]
  rfl

/-- A segment has its percent signs escaped, so it holds no escaped dot. -/
theorem plainDots_encode_segment (piece : List Char) :
    plainDots (Percent.encode (Percent.segment true) piece) =
      Percent.encode (Percent.segment true) piece := by
  induction piece with
  | nil => rfl
  | cons c rest ih =>
    rw [Percent.encode, List.flatMap_cons, ← Percent.encode]
    split
    · next hset =>
      have hdot : c ≠ '.' := by
        rintro rfl
        exact absurd hset (by decide)
      rw [plainDots_escapes (fun b hb => Utf8.ne_of_mem_encodeChar (by decide) hdot hb), ih]
    · next hset =>
      have hpercent : c ≠ '%' := by
        rintro rfl
        exact hset (by decide)
      rw [List.singleton_append, plainDots_cons fun heq => absurd heq hpercent, ih]

/-- A piece that is no dot segment is a normal segment once it is escaped. -/
theorem normalSegment_escaped (hdots : piece ≠ ['.'] ∧ piece ≠ ['.', '.']) :
    NormalSegment (escaped (Percent.segment true) piece) where
  encoded c hc := by
    rw [escaped, String.toList_ofList] at hc
    obtain ⟨-, hset⟩ | rfl | ⟨n, hn, rfl⟩ := Percent.mem_encode hc
    · simp only [Percent.segment, Bool.or_eq_false_iff] at hset
      exact hset.1.1
    · exact spares_path.1
    · exact spares_path.2 n hn
  noSlash c hc := by
    rw [escaped, String.toList_ofList] at hc
    obtain ⟨-, hset⟩ | rfl | ⟨n, hn, rfl⟩ := Percent.mem_encode hc
    · simp [Percent.segment] at hset
      simp [isSlash, hset]
    · rfl
    · exact isSlash_hexDigit n hn
  noDots := by
    simp only [escaped, String.toList_ofList, isSingleDot, isDoubleDot, plainDots_encode_segment,
      beq_eq_false_iff_ne]
    refine ⟨fun hone => hdots.1 ?_, fun htwo => hdots.2 ?_⟩
    · obtain ⟨more, rfl, hnil⟩ := Percent.cons_of_encode hone (by decide)
      rw [Percent.encode_eq_nil hnil]
    · obtain ⟨more, rfl, hone⟩ := Percent.cons_of_encode htwo (by decide)
      obtain ⟨rest, rfl, hnil⟩ := Percent.cons_of_encode hone (by decide)
      rw [Percent.encode_eq_nil hnil]

/-! ## Queries -/

/-- The pairs of the query of a URL. -/
def pairs (u : Url) : List (String × String) :=
  FormQuery.decode (utf8 (u.query.getD ""))

/-- Pairs are added after the ones that are there. -/
theorem pairs_withPairs (u : Url) (added : List (String × String)) :
    (u.withPairs added).pairs = u.pairs ++ added := by
  cases added with
  | nil => exact (List.append_nil _).symm
  | cons p rest =>
    have hquery : utf8 (String.ofList (FormQuery.append (u.query.getD "").toList (p :: rest))) =
        Utf8.encode (FormQuery.append (u.query.getD "").toList (p :: rest)) := by
      rw [utf8, String.toList_ofList]
    rw [pairs, withPairs]
    · exact (congrArg FormQuery.decode hquery).trans (FormQuery.decode_append _ _)
    · simp

/-- Characters that stay plain in a query are ASCII. -/
theorem toNat_of_isPlain (h : FormQuery.isPlain c = true) : c.toNat < 0x80 := by
  have hle : ∀ {d : Char}, c ≤ d → c.toNat ≤ d.toNat := fun hd => hd
  simp only [FormQuery.isPlain, isAsciiAlnum, isAsciiAlpha, isAsciiDigit, Bool.or_eq_true,
    Bool.and_eq_true, decide_eq_true_eq, List.contains_iff_mem, List.mem_cons, List.not_mem_nil,
    or_false] at h
  obtain ((⟨-, h⟩ | ⟨-, h⟩) | ⟨-, h⟩) | rfl | rfl | rfl | rfl := h
  · exact Nat.lt_of_le_of_lt (hle h) (by decide)
  · exact Nat.lt_of_le_of_lt (hle h) (by decide)
  · exact Nat.lt_of_le_of_lt (hle h) (by decide)
  all_goals decide

/-- The text of pairs may stand in a query as it is. -/
theorem query_encodePair (p : String × String) :
    ∀ c ∈ FormQuery.encodePair p, Percent.query true c = false := by
  have hencoded : ∀ {text : List Char}, ∀ c ∈ FormQuery.encodeText text,
      Percent.query true c = false := by
    intro text c hc
    have hplain : ∀ n < 0x80, FormQuery.isPlain (Char.ofNat n) = true →
        Percent.query true (Char.ofNat n) = false := by decide
    obtain rfl | rfl | hc := FormQuery.isEncoded_of_mem hc
    · decide
    · decide
    · have := hplain c.toNat (toNat_of_isPlain hc)
      rw [Char.ofNat_toNat] at this
      exact this hc
  intro c hc
  rw [FormQuery.encodePair, List.mem_append, List.mem_cons] at hc
  obtain hc | rfl | hc := hc
  · exact hencoded c hc
  · decide
  · exact hencoded c hc

/-- Pairs go to the query, whatever the path is. -/
theorem withPairs_of_path (u : Url) (path : UrlPath) (added : List (String × String)) :
    { u with path }.withPairs added = { u with path, query := (u.withPairs added).query } := by
  cases added <;> rfl

/-- Adding pairs to an encoded query gives an encoded one. -/
theorem encoded_append {query : List Char} (hquery : ∀ c ∈ query, Percent.query true c = false)
    (added : List (String × String)) :
    ∀ c ∈ FormQuery.append query added, Percent.query true c = false := by
  induction added generalizing query with
  | nil => exact hquery
  | cons p rest ih =>
    rw [FormQuery.append, List.foldl_cons, ← FormQuery.append]
    refine ih fun c hc => ?_
    obtain hc | hc := List.mem_append.mp hc
    · split at hc
      · exact hquery c hc
      · obtain hc | hc := List.mem_append.mp hc
        · exact hquery c hc
        · rw [List.mem_singleton.mp hc]
          decide
    · exact query_encodePair p c hc

/-- Adding pairs to a URL leaves its query encoded. -/
theorem encoded_withPairs {u : Url}
    (h : ∀ query, u.query = some query → Percent.Encoded (Percent.query true) query)
    (added : List (String × String)) (query : String) (hquery : (u.withPairs added).query = some query) :
    Percent.Encoded (Percent.query true) query := by
  cases added with
  | nil => exact h query hquery
  | cons p rest =>
    cases hquery
    intro c hc
    rw [String.toList_ofList] at hc
    refine encoded_append (fun c hc => ?_) _ c hc
    cases hbase : u.query with
    | none =>
      rw [hbase] at hc
      contradiction
    | some text =>
      rw [hbase] at hc
      exact h text hbase c hc

end Url

namespace Remote

open Url

/-! ## Paths -/

/-- The segments of a base before those of a resource. -/
def folderSegments (base : List String) : List String :=
  if dropEmptyEnd base = [""] then [] else dropEmptyEnd base

theorem folderSegments_subset (base : List String) : folderSegments base ⊆ base := by
  have hdrop : dropEmptyEnd base ⊆ base := by
    unfold dropEmptyEnd
    split
    · exact List.dropLast_subset base
    · exact List.Subset.refl base
  unfold folderSegments
  split
  · exact List.nil_subset base
  · exact hdrop

/-- Pieces that are read as they are written and are no dot segments. -/
def PlainPieces (pieces : List (List Char)) : Prop :=
  ∀ piece ∈ pieces, (piece ≠ ['.'] ∧ piece ≠ ['.', '.']) ∧ ∀ c ∈ piece, isIgnored c = false

/-- A plain piece becomes one more segment. -/
theorem pushSegment_of_plain (hdots : piece ≠ ['.'] ∧ piece ≠ ['.', '.'])
    (hplain : ∀ c ∈ piece, isIgnored c = false) (list : List String) :
    pushSegment true list piece =
      (if list = [""] then [] else list) ++ [escaped (Percent.segment true) piece] := by
  have hread : readPiece piece = piece := by
    rw [readPiece, List.filter_eq_self]
    intro c hc
    rw [hplain c hc]
    rfl
  rw [pushSegment_of_not_climbs hdots (by simp [climbs, hread, hdots.2]), segmentName, hread,
    if_neg hdots.1]
  rfl

/-- Behind the root each piece becomes a segment. -/
theorem foldl_pushSegment_of_plain (hpieces : PlainPieces pieces) (hne : list ≠ [])
    (hroot : list ≠ [""]) : pieces.foldl (pushSegment true) list =
      list ++ pieces.map (escaped (Percent.segment true)) := by
  induction pieces generalizing list with
  | nil => exact (List.append_nil list).symm
  | cons piece rest ih =>
    obtain ⟨hdots, hplain⟩ := hpieces piece List.mem_cons_self
    have hlonger : list ++ [escaped (Percent.segment true) piece] ≠ [""] := by
      intro h
      have := congrArg List.length h
      simp [hne] at this
    rw [List.foldl_cons, pushSegment_of_plain hdots hplain, if_neg hroot,
      ih (fun p hp => hpieces p (List.mem_cons_of_mem piece hp)) (by simp) hlonger,
      List.append_assoc, List.map_cons, List.singleton_append]

/-- At the root the first piece takes the place of the empty path. It must not be empty itself, or the
next one would take its place. -/
theorem foldl_pushSegment_folder (hpieces : PlainPieces pieces) (hne : pieces ≠ [])
    (hfirst : ∀ rest, pieces = [] :: rest → rest = []) (list : List String) :
    pieces.foldl (pushSegment true) (dropEmptyEnd list) =
      folderSegments list ++ pieces.map (escaped (Percent.segment true)) := by
  obtain ⟨piece, rest, rfl⟩ := List.exists_cons_of_ne_nil hne
  obtain ⟨hdots, hplain⟩ := hpieces piece List.mem_cons_self
  have hrest : PlainPieces rest := fun p hp => hpieces p (List.mem_cons_of_mem piece hp)
  rw [List.foldl_cons, pushSegment_of_plain hdots hplain, ← folderSegments]
  by_cases hempty : piece = []
  · subst hempty
    rw [hfirst rest rfl]
    rfl
  · have hroot : folderSegments list ++ [escaped (Percent.segment true) piece] ≠ [""] := by
      intro h
      have hlast := congrArg List.getLast? h
      simp only [List.getLast?_concat, List.getLast?_singleton, Option.some.injEq] at hlast
      exact hempty (escaped_eq_empty hlast)
    rw [foldl_pushSegment_of_plain hrest (by simp) hroot, List.append_assoc, List.map_cons,
      List.singleton_append]

/-! ## Resources -/

/-- Resources as they are made, of whose path all is read. -/
structure Plain (r : Resource) : Prop where
  built : r.Built
  noDots : hasDotSegment r.path = false
  noBreaks : ∀ c ∈ r.path.toList, isIgnored c = false

/-- The pieces of a plain path are plain. -/
theorem plainPieces_segmentsOf {r : Resource} (h : Plain r) : PlainPieces (segmentsOf r.path) :=
  fun piece hpiece => ⟨noDots_segmentsOf h.noDots piece hpiece,
    fun c hc => h.noBreaks c (mem_of_mem_splitOn hpiece hc)⟩

/-- The path of a resource does not start with a slash. -/
theorem head?_path {r : Resource} (h : r.Built) : r.path.toList.head? ≠ some '/' := by
  induction h with
  | ofPath category path =>
    rw [Resource.ofPath, String.toList_ofList]
    intro hhead
    have := List.head?_dropWhile_not (· == '/') path.toList
    rw [hhead] at this
    contradiction
  | withParam h name value ih => exact ih

/-- So its first piece is empty only if the path is. -/
theorem first_segmentsOf {r : Resource} (h : r.Built) (rest : List (List Char))
    (hfirst : segmentsOf r.path = [] :: rest) : rest = [] := by
  have hhead := head?_path h
  unfold segmentsOf at hfirst
  cases hpath : r.path.toList with
  | nil =>
    rw [hpath] at hfirst
    exact (List.cons.inj hfirst).2.symm
  | cons c more =>
    rw [hpath] at hfirst hhead
    have hc : (c == '/') = false := by simpa using hhead
    rw [splitOn, hc] at hfirst
    split at hfirst
    · contradiction
    · split at hfirst <;> cases hfirst

variable {s : String} {base u : Url} {r : Resource}

/-- The URL of a resource below a base with these segments. -/
def urlOf (base : Url) (list : List String) (r : Resource) : Url :=
  { base with
    path := .segments
      (folderSegments list ++ (segmentsOf r.path).map (escaped (Percent.segment true)))
    query := (base.withPairs r.params).query }

/-- A plain resource resolves to its own URL, and never fails. -/
theorem resolve_of_plain (hweb : base.scheme = "http" ∨ base.scheme = "https")
    (hpath : base.path = .segments list) (h : Plain r) : resolve base r = .ok (urlOf base list r) := by
  have hisBase : base.isBase = true := by simp [isBase, hpath]
  rw [resolve, if_neg (by simp [h.noDots]), if_neg (by simp [hisBase]), withSegments_of_web hweb hpath,
    foldl_pushSegment_folder (plainPieces_segmentsOf h) (splitOn_ne_nil _) (first_segmentsOf h.built),
    withPairs_of_path]
  rfl

/-- A web address is brought into the normal form by reading it, and the URLs of resources below it are
in that form too. -/
theorem normal_urlOf (hbase : base.Normal) (hpath : base.path = .segments list) (h : Plain r) :
    (urlOf base list r).Normal := by
  have hpieces := plainPieces_segmentsOf h
  obtain ⟨list', hpath', -, hnormal⟩ := hbase.path
  obtain rfl : list = list' := UrlPath.segments.inj (hpath.symm.trans hpath')
  refine ⟨hbase.web, hbase.authority, ⟨_, rfl, ?_, ?_⟩, encoded_withPairs hbase.query r.params,
    hbase.fragment⟩
  · simp [segmentsOf, splitOn_ne_nil]
  · refine NormalSegments.append (fun segment hsegment => ?_) fun segment hsegment => ?_
    · exact hnormal segment (folderSegments_subset list hsegment)
    · obtain ⟨piece, hpiece, rfl⟩ := List.mem_map.mp hsegment
      exact normalSegment_escaped (hpieces piece hpiece).1

/-- What a URL says if it stands for a resource at a base: its last segments are the pieces of the path,
its fragment is that of the base, and its pairs are those of the base and then the parameters. -/
structure Spells (base : Url) (r : Resource) (u : Url) : Prop where
  path : ∃ front last, u.path = .segments (front ++ last) ∧
    last.map segmentText? = (segmentsOf r.path).map fun piece => some (String.ofList piece)
  fragment : u.fragment = base.fragment
  pairs : u.pairs = base.pairs ++ r.params

/-- That URL spells the resource. -/
theorem spells_urlOf (base : Url) (list : List String) (r : Resource) :
    Spells base r (urlOf base list r) where
  path := by
    refine ⟨_, _, rfl, ?_⟩
    rw [List.map_map]
    exact List.map_congr_left fun piece _ => segmentText?_escaped piece
  fragment := rfl
  pairs := pairs_withPairs base r.params

/-- A URL stands for one path and one list of parameters at most, if it is made from them. -/
theorem urlOf_inj {r' : Resource} (h : urlOf base list r = urlOf base list r') :
    r.path = r'.path ∧ r.params = r'.params := by
  have hsegments := List.append_cancel_left (UrlPath.segments.inj (congrArg Url.path h))
  have hpieces : segmentsOf r.path = segmentsOf r'.path := by
    refine (List.map_inj_right fun piece piece' hsegment => ?_).mp hsegments
    have htext := congrArg segmentText? hsegment
    rw [segmentText?_escaped, segmentText?_escaped] at htext
    exact String.ofList_inj.mp (Option.some.inj htext)
  have hpairs : base.pairs ++ r.params = base.pairs ++ r'.params := by
    rw [← (spells_urlOf base list r).pairs, h, (spells_urlOf base list r').pairs]
  refine ⟨String.toList_inj.mp ?_, List.append_cancel_left hpairs⟩
  rw [← intercalate_splitOn '/' r.path.toList, ← segmentsOf, hpieces, segmentsOf, intercalate_splitOn]

/-- **The URL of a resource.** For every remote and every resource of whose path all is read there is a
URL. Its last segments say the pieces of the path, its fragment is that of the remote, and its query says
the pairs of the remote and then the parameters. And resources that differ in path or parameters have
URLs that differ in their text. -/
theorem resolve_faithful (hbase : normalize s = .ok base)
    (hweb : base.scheme = "http" ∨ base.scheme = "https") :
    (∀ r, Plain r → ∃ u, resolve base r = .ok u ∧ Spells base r u) ∧
      ∀ r r' u u', Plain r → Plain r' → resolve base r = .ok u → resolve base r' = .ok u' →
        u.text = u'.text → r.path = r'.path ∧ r.params = r'.params := by
  obtain ⟨text, hparse⟩ := parse_of_normalize hbase
  have hnormal := normal_of_parse hparse hweb
  obtain ⟨list, hpath, -⟩ := hnormal.path
  refine ⟨fun r hr => ⟨_, resolve_of_plain hweb hpath hr, spells_urlOf base list r⟩, ?_⟩
  intro r r' u u' hr hr' hu hu' htext
  rw [resolve_of_plain hweb hpath hr] at hu
  rw [resolve_of_plain hweb hpath hr'] at hu'
  cases hu
  cases hu'
  -- Read back, the two texts are the two URLs, and these tell the resources apart.
  have hread := (normal_urlOf hnormal hpath hr).parse_text
  rw [htext, (normal_urlOf hnormal hpath hr').parse_text] at hread
  exact urlOf_inj (Except.ok.inj hread).symm

/-- An escaped slash in a path is another path than a slash, and what looks like a query is no query. -/
theorem slash_told_from_escape :
    ∃ u u' : Url, resolve mavenRemote ⟨"a%2Fb?c=d", [], .content⟩ = .ok u ∧
      resolve mavenRemote ⟨"a/b", [("c", "d")], .content⟩ = .ok u' ∧ u.pairs = [] ∧
      u'.pairs = [("c", "d")] ∧ u.text ≠ u'.text := by
  have hplain : Plain ⟨"a%2Fb?c=d", [], .content⟩ :=
    ⟨.ofPath .content "a%2Fb?c=d", by decide, forall_of_all (by decide)⟩
  have hplain' : Plain ⟨"a/b", [("c", "d")], .content⟩ :=
    ⟨.withParam (.ofPath .content "a/b") "c" "d", by decide, forall_of_all (by decide)⟩
  obtain ⟨hspells, htold⟩ := resolve_faithful normalize_mavenRemote (.inr rfl)
  obtain ⟨u, hu, hsays⟩ := hspells _ hplain
  obtain ⟨u', hu', hsays'⟩ := hspells _ hplain'
  refine ⟨u, u', hu, hu', hsays.pairs.trans (by decide), hsays'.pairs.trans (by decide), ?_⟩
  intro htext
  exact absurd (htold _ _ u u' hplain hplain' hu hu' htext).2 (by decide)

end Remote

end PullCache
