import PullCache.Proofs.Url.Path
import PullCache.Remote
/-!
# Proofs.Remote.Containment

Where the URL of a resource lies. Scheme, user, host and number are those of the base whatever a
client asks for. Its path lies in the folder of the base for every path without steps upwards, but
steps are refused as they are written and taken as they are read: a piece of two dots with a tab or a
line break between them is not refused, and it takes the last segment of the base away.

* `foldl_pushSegment_keeps` — no piece reaches further up than the last segment;
* `escapes` — which paths get out, by the pieces alone;
* `resolve_below_iff` — a resource is found in the folder of the base exactly if its path does not
  get out.
-/

namespace PullCache

open Text

/-- The text of a path as that of a folder, with a slash at its end. -/
def UrlPath.folderText (path : UrlPath) : String :=
  if path.text.toList.getLast? = some '/' then path.text else path.text ++ "/"

namespace Remote

open Url

/-! ## Pieces -/

/-- What is read of a piece: tabs and line breaks are not. -/
def readPiece (piece : List Char) : List Char :=
  piece.filter fun c => !isIgnored c

/-- Whether a piece is read as a step to the folder above. -/
def climbs (piece : List Char) : Bool :=
  readPiece piece == ['.', '.']

/-- The segment that a piece becomes if it is no step upwards. -/
def segmentName (piece : List Char) : String :=
  if readPiece piece = ['.'] then ""
  else String.ofList (Percent.encode (Percent.segment true) (readPiece piece))

/-- Whether a path that starts at the root, with nothing before it, ends up in the folder of this
name or below. The root itself is left for the first segment with a name; a step upwards right after
it leads to the root again. -/
def comesBack (name : String) : List (List Char) → Bool
  | [] => false
  | piece :: rest =>
    if climbs piece || segmentName piece == "" then comesBack name rest
    else match rest with
      | [] => false
      | next :: more => if climbs next then comesBack name more else segmentName piece == name

/-- Whether the pieces of a path lead out of the folder of a base, whose path has the segments
`base`. -/
def escapes (base : List String) (pieces : List (List Char)) : Bool :=
  match dropEmptyEnd base with
  | [name] => base != [""] && (name == "" || pieces.head?.any climbs) && !comesBack name pieces
  | folder => pieces.head?.any climbs && (folder.getLast? != some "" || pieces.all climbs)

/-- The pieces of a path of which none is a dot segment as it is written. -/
def NoDots (pieces : List (List Char)) : Prop :=
  ∀ piece ∈ pieces, piece ≠ ['.'] ∧ piece ≠ ['.', '.']

/-- A path that passes the guard has no dot segments as it stands. -/
theorem noDots_segmentsOf {path : String} (h : hasDotSegment path = false) :
    NoDots (segmentsOf path) := by
  intro piece hpiece
  have := List.any_eq_false.mp h piece hpiece
  simpa using this

/-! ## One piece -/

variable {piece : List Char} {pieces : List (List Char)} {list front : List String}

/-- A piece that reads as two dots climbs one segment. -/
theorem pushSegment_of_climbs (hdots : piece ≠ ['.', '.']) (h : climbs piece = true) :
    pushSegment true list piece = list.dropLast ++ [""] := by
  have hread : piece.filter (fun c => !isIgnored c) = ['.', '.'] := by
    simpa [climbs, readPiece] using h
  have hdot : piece ≠ ['.'] := by
    rintro rfl
    simp [isIgnored] at hread
  simp [pushSegment, hdots, hdot, hread]

/-- Any other piece adds a segment. -/
theorem pushSegment_of_not_climbs (hdots : piece ≠ ['.'] ∧ piece ≠ ['.', '.'])
    (h : climbs piece = false) :
    pushSegment true list piece = (if list = [""] then [] else list) ++ [segmentName piece] := by
  have hread : piece.filter (fun c => !isIgnored c) ≠ ['.', '.'] := by
    simpa [climbs, readPiece] using h
  by_cases hdot : piece.filter (fun c => !isIgnored c) = ['.']
  · simp [pushSegment, hdots, segmentName, readPiece, hdot]
  · simp [pushSegment, hdots, segmentName, readPiece, hdot, hread]

/-- The name of a piece has no slash. -/
theorem slashFree_segmentName (h : '/' ∉ piece) : SlashFree [segmentName piece] := by
  rw [segmentName]
  split
  · exact slashFree_singleton_empty
  · apply slashFree_encode
    intro hmem
    exact h (List.mem_filter.mp hmem).1

/-- Pushing a piece adds no slash to a segment. -/
theorem slashFree_pushSegment (hdots : piece ≠ ['.'] ∧ piece ≠ ['.', '.']) (hpiece : '/' ∉ piece)
    (hlist : SlashFree list) : SlashFree (pushSegment true list piece) := by
  cases hc : climbs piece with
  | true =>
    rw [pushSegment_of_climbs hdots.2 hc]
    exact slashFree_append (slashFree_dropLast hlist) slashFree_singleton_empty
  | false =>
    rw [pushSegment_of_not_climbs hdots hc]
    apply slashFree_append ?_ (slashFree_segmentName hpiece)
    split
    · simp [SlashFree]
    · exact hlist

/-! ## All pieces -/

/-- Nor does pushing many of them. -/
theorem slashFree_foldl_pushSegment (hdots : NoDots pieces) (hpieces : ∀ piece ∈ pieces, '/' ∉ piece)
    (hlist : SlashFree list) : SlashFree (pieces.foldl (pushSegment true) list) := by
  induction pieces generalizing list with
  | nil => exact hlist
  | cons piece rest ih =>
    apply ih (fun p hp => hdots p (List.mem_cons_of_mem piece hp))
      (fun p hp => hpieces p (List.mem_cons_of_mem piece hp))
    exact slashFree_pushSegment (hdots piece List.mem_cons_self)
      (hpieces piece List.mem_cons_self) hlist

/-- Steps upwards take only the last segment away, however many they are: what stands before it
stays. -/
theorem foldl_pushSegment_keeps (hdots : NoDots pieces) (hfront : front ≠ []) (x : String) :
    ∃ more, more ≠ [] ∧ pieces.foldl (pushSegment true) (front ++ [x]) = front ++ more := by
  induction pieces generalizing front x with
  | nil => exact ⟨[x], by simp, rfl⟩
  | cons piece rest ih =>
    have hpiece := hdots piece List.mem_cons_self
    have hrest : NoDots rest := fun p hp => hdots p (List.mem_cons_of_mem piece hp)
    rw [List.foldl_cons]
    cases hc : climbs piece with
    | true =>
      rw [pushSegment_of_climbs hpiece.2 hc, List.dropLast_concat]
      exact ih hrest hfront ""
    | false =>
      have hroot : front ++ [x] ≠ [""] := by
        intro h
        have := congrArg List.length h
        simp at this
        contradiction
      rw [pushSegment_of_not_climbs hpiece hc, if_neg hroot]
      have hne : front ++ [x] ≠ [] := by simp
      obtain ⟨more, -, hmore⟩ := ih hrest hne (segmentName piece)
      exact ⟨x :: more, by simp, by rw [hmore]; simp⟩

/-- A first piece that does not climb leaves the folder as it is. -/
theorem foldl_pushSegment_of_not_climbs (hdots : NoDots (piece :: pieces)) (hlist : list ≠ [])
    (hroot : list ≠ [""]) (hc : climbs piece = false) :
    ∃ more, more ≠ [] ∧ (piece :: pieces).foldl (pushSegment true) list = list ++ more := by
  rw [List.foldl_cons, pushSegment_of_not_climbs (hdots piece List.mem_cons_self) hc,
    if_neg hroot]
  exact foldl_pushSegment_keeps (fun p hp => hdots p (List.mem_cons_of_mem piece hp)) hlist _

/-- After a step upwards the last segment is empty, and it is the last one as long as there are only
more such steps. -/
theorem foldl_pushSegment_emptyEnd (hdots : NoDots pieces) (hfront : front ≠ []) :
    ∃ more, pieces.foldl (pushSegment true) (front ++ [""]) = front ++ "" :: more ∧
      (more = [] ↔ pieces.all climbs = true) := by
  induction pieces with
  | nil => exact ⟨[], rfl, by simp⟩
  | cons piece rest ih =>
    have hpiece := hdots piece List.mem_cons_self
    have hrest : NoDots rest := fun p hp => hdots p (List.mem_cons_of_mem piece hp)
    cases hc : climbs piece with
    | true =>
      rw [List.foldl_cons, pushSegment_of_climbs hpiece.2 hc, List.dropLast_concat]
      obtain ⟨more, hmore, hall⟩ := ih hrest
      exact ⟨more, hmore, by rw [hall]; simp [hc]⟩
    | false =>
      have hroot : front ++ [""] ≠ [""] := by simpa using hfront
      obtain ⟨more, hne, hmore⟩ := foldl_pushSegment_of_not_climbs hdots (by simp) hroot hc
      exact ⟨more, by rw [hmore]; simp, by simp [hne, hc]⟩

/-- At the root nothing is above, so steps upwards and pieces without a name leave it as it is. -/
theorem pushSegment_root (hdots : piece ≠ ['.'] ∧ piece ≠ ['.', '.'])
    (h : (climbs piece || segmentName piece == "") = true) : pushSegment true [""] piece = [""] := by
  cases hc : climbs piece with
  | true => simp [pushSegment_of_climbs hdots.2 hc]
  | false =>
    have hname : segmentName piece = "" := by simpa [hc] using h
    simp [pushSegment_of_not_climbs hdots hc, hname]

/-- From the root a folder of one segment is reached by its name alone. -/
theorem foldl_pushSegment_root (name : String) (hdots : NoDots pieces) :
    (∃ more, more ≠ [] ∧ pieces.foldl (pushSegment true) [""] = name :: more) ↔
      comesBack name pieces = true := by
  fun_induction comesBack name pieces with
  | case1 => simp
  | case2 piece rest hstay ih =>
    have hrest : NoDots rest := fun p hp => hdots p (List.mem_cons_of_mem piece hp)
    rw [List.foldl_cons, pushSegment_root (hdots piece List.mem_cons_self) hstay]
    exact ih hrest
  | case3 piece hgo =>
    have hc : climbs piece = false := by simp_all
    rw [List.foldl_cons, pushSegment_of_not_climbs (hdots piece List.mem_cons_self) hc]
    simp
  | case4 piece hgo next more hnext ih =>
    have hmore : NoDots more := fun p hp => hdots p (by simp [hp])
    have hc : climbs piece = false := by simp_all
    rw [List.foldl_cons, pushSegment_of_not_climbs (hdots piece (by simp)) hc, List.foldl_cons,
      pushSegment_of_climbs (hdots next (by simp)).2 hnext]
    exact ih hmore
  | case5 piece hgo next more hnext =>
    have hc : climbs piece = false := by simp_all
    have hname : segmentName piece ≠ "" := by simp_all
    have hrest : NoDots (next :: more) := fun p hp => hdots p (List.mem_cons_of_mem piece hp)
    rw [List.foldl_cons, pushSegment_of_not_climbs (hdots piece (by simp)) hc, if_pos rfl,
      List.nil_append]
    have hne : [segmentName piece] ≠ [] := by simp
    obtain ⟨found, hfound, hlist⟩ := foldl_pushSegment_of_not_climbs hrest hne
      (by simpa using hname) (by simpa using hnext)
    rw [hlist]
    constructor
    · rintro ⟨_, _, h⟩
      simpa using (List.cons.inj h).1
    · intro h
      exact ⟨found, hfound, by simpa using beq_iff_eq.mp h⟩

/-- A step upwards from the root stays at the root. -/
theorem comesBack_cons_of_climbs (name : String) (h : climbs piece = true) :
    comesBack name (piece :: pieces) = comesBack name pieces := by
  cases pieces <;> simp [comesBack, h]

theorem comesBack_empty : comesBack "" pieces = false := by
  fun_induction comesBack "" pieces <;> simp_all

/-- Out of a folder with a single segment a path may come back by its name. -/
theorem escapes_of_singleton {base : List String} {name : String} (h : dropEmptyEnd base = [name]) :
    escapes base pieces =
      (base != [""] && (name == "" || pieces.head?.any climbs) && !comesBack name pieces) := by
  rw [escapes, h]

/-- Any other folder is left by the first piece or not at all. -/
theorem escapes_of_ne_singleton {base : List String} (h : ∀ name, dropEmptyEnd base ≠ [name]) :
    escapes base pieces = (pieces.head?.any climbs &&
      ((dropEmptyEnd base).getLast? != some "" || pieces.all climbs)) := by
  rw [escapes]
  split
  · next name hname => exact absurd hname (h name)
  · rfl

theorem dropEmptyEnd_ne_nil (h : list ≠ []) : dropEmptyEnd list ≠ [] := by
  rw [dropEmptyEnd]
  split
  · next hlong =>
    intro hnil
    have := congrArg List.length hnil
    simp only [List.length_dropLast, List.length_nil] at this
    omega
  · exact h

/-- A path goes on below a folder of one segment exactly if it does not escape from it. -/
theorem below_iff_of_singleton {name : String} (hdots : NoDots (piece :: pieces))
    (hroot : list ≠ [""]) (hfolder : dropEmptyEnd list = [name]) :
    (∃ more, more ≠ [] ∧
      (piece :: pieces).foldl (pushSegment true) [name] = [name] ++ more) ↔
      escapes list (piece :: pieces) = false := by
  rw [escapes_of_singleton hfolder]
  by_cases hname : name = ""
  · subst hname
    have habove := foldl_pushSegment_root "" hdots
    rw [comesBack_empty] at habove ⊢
    simpa [hroot] using habove
  · cases hc : climbs piece with
    | true =>
      have hrest : NoDots pieces := fun p hp => hdots p (List.mem_cons_of_mem piece hp)
      rw [List.foldl_cons, pushSegment_of_climbs (hdots piece List.mem_cons_self).2 hc,
        comesBack_cons_of_climbs name hc]
      simp [hroot, hc, foldl_pushSegment_root name hrest]
    | false =>
      have hne : [name] ≠ [] := by simp
      refine iff_of_true (foldl_pushSegment_of_not_climbs hdots hne (by simpa using hname) hc) ?_
      simp [hname, hc]

/-- A path goes on below a folder of more segments exactly if it does not escape from it: only a
first step upwards can take away a segment of the folder, the last one. -/
theorem below_iff_of_append (hdots : NoDots (piece :: pieces)) (hfront : front ≠ []) (x : String)
    (hfolder : dropEmptyEnd list = front ++ [x]) :
    (∃ more, more ≠ [] ∧
      (piece :: pieces).foldl (pushSegment true) (front ++ [x]) = front ++ [x] ++ more) ↔
      escapes list (piece :: pieces) = false := by
  have hlong : ∀ name, front ++ [x] ≠ [name] := by
    intro name h
    have := congrArg List.length h
    simp at this
    contradiction
  rw [escapes_of_ne_singleton (hfolder ▸ hlong), hfolder]
  cases hc : climbs piece with
  | true =>
    have hrest : NoDots pieces := fun p hp => hdots p (List.mem_cons_of_mem piece hp)
    obtain ⟨more, hmore, hall⟩ := foldl_pushSegment_emptyEnd hrest hfront
    rw [List.foldl_cons, pushSegment_of_climbs (hdots piece List.mem_cons_self).2 hc,
      List.dropLast_concat, hmore]
    constructor
    · rintro ⟨found, hfound, h⟩
      have hxs : "" = x ∧ more = found := by simpa using h
      obtain ⟨rfl, rfl⟩ := hxs
      simpa [hc, hall] using hfound
    · intro h
      have hxs : x = "" ∧ more ≠ [] := by simpa [hc, hall] using h
      obtain ⟨rfl, hne⟩ := hxs
      exact ⟨more, hne, by simp⟩
  | false =>
    refine iff_of_true (foldl_pushSegment_of_not_climbs hdots (by simp) (hlong "") hc) ?_
    simp [hc]

/-- A path goes on below a folder exactly if it does not escape from it. -/
theorem foldl_pushSegment_below_iff (hdots : NoDots pieces) (hpieces : pieces ≠ [])
    (hlist : list ≠ []) (hroot : list ≠ [""]) :
    (∃ more, more ≠ [] ∧
      pieces.foldl (pushSegment true) (dropEmptyEnd list) = dropEmptyEnd list ++ more) ↔
      escapes list pieces = false := by
  obtain ⟨piece, rest, rfl⟩ := List.exists_cons_of_ne_nil hpieces
  have hfolder := List.dropLast_concat_getLast (dropEmptyEnd_ne_nil hlist)
  cases hfront : (dropEmptyEnd list).dropLast with
  | nil =>
    rw [hfront, List.nil_append] at hfolder
    rw [← hfolder]
    exact below_iff_of_singleton hdots hroot hfolder.symm
  | cons first more =>
    rw [hfront] at hfolder
    rw [← hfolder]
    exact below_iff_of_append hdots (by simp) _ hfolder.symm

/-! ## The URL of a resource -/

/-- Nothing leads out of the root. -/
theorem escapes_root : escapes [""] pieces = false := by
  simp [escapes, dropEmptyEnd]

/-- There is always a segment left. -/
theorem foldl_pushSegment_ne_nil (hlist : list ≠ []) :
    pieces.foldl (pushSegment true) list ≠ [] := by
  induction pieces generalizing list with
  | nil => exact hlist
  | cons piece rest ih =>
    apply ih
    rw [pushSegment]
    split
    · exact hlist
    · dsimp only
      split
      · simp
      · split <;> simp

theorem slashFree_dropEmptyEnd (h : SlashFree list) : SlashFree (dropEmptyEnd list) := by
  rw [dropEmptyEnd]
  split
  · exact slashFree_dropLast h
  · exact h

/-- The text of a folder is that of its path without an empty last segment, and a slash. -/
theorem folderText_segments (hlist : list ≠ []) (hroot : list ≠ [""]) (hfree : SlashFree list) :
    (UrlPath.segments list).folderText = (UrlPath.segments (dropEmptyEnd list)).text ++ "/" := by
  obtain ⟨front, last, rfl⟩ : ∃ front last, list = front ++ [last] :=
    ⟨_, _, (List.dropLast_concat_getLast hlist).symm⟩
  have htext := UrlPath.text_append_singleton front last
  by_cases hlast : last = ""
  · subst hlast
    have hfront : 0 < front.length := List.length_pos_iff.mpr (by rintro rfl; contradiction)
    have hdrop : dropEmptyEnd (front ++ [""]) = front := by simp [dropEmptyEnd, hfront]
    rw [UrlPath.folderText, htext, hdrop]
    simp
  · have hdrop : dropEmptyEnd (front ++ [last]) = front ++ [last] := by simp [dropEmptyEnd, hlast]
    have hend : last.toList.getLast? ≠ some '/' := fun h =>
      hfree last (by simp) (List.mem_of_getLast? h)
    rw [UrlPath.folderText, hdrop, if_neg]
    rw [htext, String.toList_append, List.getLast?_append]
    cases h : last.toList.getLast? with
    | none => simp_all
    | some c => simpa [h] using hend

/-- The path of a resource lies in the folder of the base exactly if the pieces of its own path do
not escape. -/
theorem path_below_iff (hdots : NoDots pieces) (hpieces : pieces ≠ [])
    (hslash : ∀ piece ∈ pieces, '/' ∉ piece) (hlist : list ≠ []) (hfree : SlashFree list) :
    (∃ rest, (UrlPath.segments (pieces.foldl (pushSegment true) (dropEmptyEnd list))).text =
      (UrlPath.segments list).folderText ++ rest) ↔ escapes list pieces = false := by
  have hfolder := dropEmptyEnd_ne_nil hlist
  have hffree := slashFree_dropEmptyEnd hfree
  by_cases hroot : list = [""]
  · subst hroot
    rw [UrlPath.text_segments (foldl_pushSegment_ne_nil hfolder)]
    simp only [escapes_root, iff_true]
    exact ⟨_, rfl⟩
  · rw [folderText_segments hlist hroot hfree, text_below_iff hfolder
      (foldl_pushSegment_ne_nil hfolder) hffree (slashFree_foldl_pushSegment hdots hslash hffree)]
    exact foldl_pushSegment_below_iff hdots hpieces hlist hroot

/-- A path is split at every slash. -/
theorem slash_not_mem_segmentsOf {path : String} :
    ∀ piece ∈ segmentsOf path, '/' ∉ piece := by
  intro piece hpiece hslash
  have := not_isSep_of_mem_splitOn hpiece '/' hslash
  simp at this

/-- A URL that is read as a remote is what the text, with a slash at its end, says. -/
theorem parse_of_normalize {s : String} {base : Url} (h : normalize s = .ok base) :
    ∃ text, Url.parse text = .ok base := by
  unfold normalize at h
  split at h
  · contradiction
  · next u hparse =>
    split at h
    · cases h
      exact ⟨_, hparse⟩
    · contradiction

/-- Segments of a web URL go to its path and nowhere else. -/
theorem withSegments_of_web {base : Url} {pieces : List (List Char)} {list : List String}
    (hscheme : base.scheme = "http" ∨ base.scheme = "https") (hpath : base.path = .segments list) :
    base.withSegments pieces =
      { base with path := .segments (pieces.foldl (pushSegment true) (dropEmptyEnd list)) } := by
  have hfile : (base.scheme == "file") = false := by
    obtain h | h := hscheme <;> simp [h]
  simp [withSegments, hpath, hfile, isSpecial_of_web hscheme]

/-- Pairs go to the query and nowhere else. -/
theorem withPairs_eq (u : Url) (pairs : List (String × String)) :
    ∃ query, u.withPairs pairs = { u with query } := by
  cases pairs with
  | nil => exact ⟨u.query, rfl⟩
  | cons pair rest => exact ⟨_, rfl⟩

/-- Whether a path leads out of the folder of a base URL. -/
def escapesFrom (base : Url) (path : String) : Bool :=
  match base.path with
  | .segments list => escapes list (segmentsOf path)
  | .whole _ => false

/-- What is asked of the origin for a resource. A path with a dot segment as it is written is
refused. For any other path there is a URL, with the scheme, the user, the host and the number of the
remote, and its path lies in the folder of the remote exactly if the pieces of the path do not lead
out of it when they are read without tabs and line breaks. -/
theorem resolve_below_iff {s : String} {base : Url} (hbase : normalize s = .ok base)
    (hscheme : base.scheme = "http" ∨ base.scheme = "https") (r : Resource) :
    (hasDotSegment r.path = true ∧ resolve base r =
      .error (.badRequest (r.display ++ " resolves outside of " ++ base.text))) ∨
    (hasDotSegment r.path = false ∧ ∃ u, resolve base r = .ok u ∧
      u.scheme = base.scheme ∧ u.username = base.username ∧ u.password = base.password ∧
      u.host = base.host ∧ u.tcpPort = base.tcpPort ∧
      ((∃ rest, u.path.text = base.path.folderText ++ rest) ↔ escapesFrom base r.path = false)) := by
  obtain ⟨text, hparse⟩ := parse_of_normalize hbase
  obtain ⟨list, hpath, hlist, hfree⟩ := path_of_parse hparse hscheme
  cases hdots : hasDotSegment r.path with
  | true =>
    left
    exact ⟨rfl, by rw [resolve, if_pos hdots]⟩
  | false =>
    right
    have hisBase : base.isBase = true := by simp [isBase, hpath]
    obtain ⟨query, hquery⟩ := withPairs_eq (base.withSegments (segmentsOf r.path)) r.params
    have hresolve : resolve base r =
        .ok { base.withSegments (segmentsOf r.path) with query } := by
      rw [resolve, if_neg (by simp [hdots]), if_neg (by simp [hisBase]), hquery]
    rw [withSegments_of_web hscheme hpath] at hresolve
    refine ⟨rfl, _, hresolve, rfl, rfl, rfl, rfl, rfl, ?_⟩
    rw [hpath, escapesFrom, hpath]
    exact path_below_iff (noDots_segmentsOf hdots) (splitOn_ne_nil _) slash_not_mem_segmentsOf
      hlist hfree

/-- A base two folders deep. -/
def mavenRemote : Url where
  scheme := "https"
  host := some (.domain "origin.test")
  path := .segments ["repo", "maven2", ""]

theorem normalize_mavenRemote :
    normalize "https://origin.test/repo/maven2/" = .ok mavenRemote := by
  have h : (normalize "https://origin.test/repo/maven2/").toOption = some mavenRemote := by
    decide +kernel
  cases hn : normalize "https://origin.test/repo/maven2/" with
  | error e => simp [hn, Except.toOption] at h
  | ok u => simpa [hn, Except.toOption] using h

/-- An ordinary file is found in the folder of the base. -/
theorem resolve_below_mavenRemote :
    ∃ u, resolve mavenRemote ⟨"org/a.jar", [], .content⟩ = .ok u ∧
      ∃ rest, u.path.text = "/repo/maven2/" ++ rest := by
  obtain ⟨hdots, -⟩ | ⟨-, u, hu, -, -, -, -, -, hbelow⟩ :=
    resolve_below_iff normalize_mavenRemote (.inr rfl) ⟨"org/a.jar", [], .content⟩
  · exact absurd hdots (by decide)
  · exact ⟨u, hu, hbelow.mpr (by decide)⟩

/-- Two dots with a tab between them are not refused, and the request goes to the folder above the
base. -/
theorem resolve_above_mavenRemote :
    normalize "https://origin.test/repo/maven2/" = .ok mavenRemote ∧
    ∃ u, resolve mavenRemote ⟨".\t./secret.txt", [], .content⟩ = .ok u ∧
      u.text = "https://origin.test/repo//secret.txt" ∧
      ¬∃ rest, u.path.text = mavenRemote.path.folderText ++ rest := by
  refine ⟨normalize_mavenRemote, { mavenRemote with path := .segments ["repo", "", "secret.txt"] },
    rfl, by decide +kernel, ?_⟩
  rintro ⟨rest, h⟩
  have htext : "/repo//secret.txt".toList = "/repo/maven2/".toList ++ rest.toList := by
    rw [← String.toList_append]
    exact congrArg String.toList h
  simp at htext

/-- Without tabs and line breaks no path leads out of a folder. The path of two slashes is no
folder: its empty segments are taken for no path at all. -/
theorem escapes_eq_false_of_plain {list : List String} {pieces : List (List Char)}
    (hlist : list ≠ ["", ""]) (hdots : NoDots pieces)
    (hplain : ∀ piece ∈ pieces, ∀ c ∈ piece, isIgnored c = false) : escapes list pieces = false := by
  have hhead : pieces.head?.any climbs = false := by
    cases pieces with
    | nil => rfl
    | cons piece rest =>
      have hread : readPiece piece = piece := by
        rw [readPiece, List.filter_eq_self]
        intro c hc
        simp [hplain piece List.mem_cons_self c hc]
      simp [climbs, hread, (hdots piece List.mem_cons_self).2]
  rw [escapes]
  split
  · next name hname =>
    by_cases hroot : list = [""]
    · simp [hroot]
    · have hne : name ≠ "" := by
        rintro rfl
        rw [dropEmptyEnd] at hname
        split at hname
        · next hend =>
          obtain ⟨front, rfl⟩ := List.getLast?_eq_some_iff.mp hend.2
          rw [List.dropLast_concat] at hname
          subst hname
          exact hlist rfl
        · exact hroot hname
      simp [hhead, hne]
  · simp [hhead]

end Remote

end PullCache
