import PullCache.Proofs.Url.Authority
/-!
# Proofs.Url.Slash

Web addresses with a slash put at their end. The slash keeps what stands before it from being the end
of the text, and so spaces and control characters there, which are dropped at the end, are read as part
of the address (`parse_slash`). Where the authority reaches that far this makes the address invalid
(`parse_slash_of_open`); else the authority stays as it is (`parse_slash_of_closed`).
-/

namespace PullCache.Url

open Text

/-! ## The end of a text -/

/-- The spaces and control characters at the end of a text that are dropped because they stand there;
tabs and line breaks are dropped anywhere. -/
def blanksAtEnd (cs : List Char) : List Char :=
  (cs.reverse.takeWhile isEdge).reverse.filter fun c => !isIgnored c

/-- Only blanks are cut off at the end. -/
theorem mem_blanksAtEnd {cs : List Char} {c : Char} (h : c ∈ blanksAtEnd cs) : c.toNat ≤ 0x20 := by
  have hmem := List.mem_reverse.mp (List.mem_filter.mp h).1
  simpa [isEdge] using List.all_eq_true.mp List.all_takeWhile c hmem

/-- A slash after a text that is not blank is kept, and everything at the end before it that is not
dropped anywhere. -/
theorem cleaned_slash {cs : List Char} (h : cleaned cs ≠ []) :
    cleaned (cs ++ ['/']) = cleaned cs ++ (blanksAtEnd cs ++ ['/']) := by
  have hback : (cs.dropWhile isEdge).reverse.dropWhile isEdge ≠ [] := by
    intro hnil
    simp [cleaned, hnil] at h
  have hfront : cs.dropWhile isEdge ≠ [] := by
    intro hnil
    simp [hnil] at hback
  have hreverse : cs.reverse = (cs.dropWhile isEdge).reverse ++ (cs.takeWhile isEdge).reverse := by
    rw [← List.reverse_append, List.takeWhile_append_dropWhile]
  have hblanks : blanksAtEnd cs =
      ((cs.dropWhile isEdge).reverse.takeWhile isEdge).reverse.filter fun c => !isIgnored c := by
    rw [blanksAtEnd, hreverse, (span_append hback _).1]
  have hall : cleaned (cs ++ ['/']) =
      (cs.dropWhile isEdge).filter (fun c => !isIgnored c) ++ ['/'] := by
    simp [cleaned, (span_append hfront _).2, isEdge, isIgnored]
  rw [hall, hblanks, cleaned, ← List.append_assoc, ← List.filter_append, spanEnd_append]

/-- A scheme is read from the front. -/
theorem scheme?_append {cs rest : List Char} {scheme : String} (h : scheme? cs = some (scheme, rest))
    (more : List Char) : scheme? (cs ++ more) = some (scheme, rest ++ more) := by
  unfold scheme? at h ⊢
  split at h
  · next hletter =>
    split at h
    · next colon =>
      cases h
      have hrest : cs.dropWhile isSchemeChar ≠ [] := by simp [colon]
      have hhead : (cs ++ more).head?.any isAsciiAlpha = true := by
        cases cs with
        | nil => contradiction
        | cons c cs => exact hletter
      obtain ⟨htake, hdrop⟩ := span_append hrest more
      rw [if_pos hhead, htake, hdrop, colon]
      rfl
    · contradiction
  · contradiction

/-! ## Web addresses -/

/-- What a web address says after its scheme and the slashes. -/
def location (s : String) : List Char :=
  match scheme? (cleaned s.toList) with
  | some (_, rest) => rest.dropWhile (isSlash true)
  | none => []

/-- A delimiter ends the authority of a web address, or nothing was dropped after it. -/
def IsClosed (s : String) : Prop :=
  (location s).any endsAuthority = true ∨ blanksAtEnd s.toList = []

instance (s : String) : Decidable (IsClosed s) :=
  inferInstanceAs (Decidable (_ ∨ _))

variable {s : String} {u : Url}

/-- The location begins after the slashes behind the scheme. -/
theorem location_of_scheme? {scheme : String} {rest : List Char}
    (h : scheme? (cleaned s.toList) = some (scheme, rest)) :
    location s = rest.dropWhile (isSlash true) := by
  rw [location, h]

/-- Only path, query and fragment tell the one URL from the other. -/
structure SameAuthority (u v : Url) : Prop where
  scheme : u.scheme = v.scheme
  username : u.username = v.username
  password : u.password = v.password
  host : u.host = v.host
  tcpPort : u.tcpPort = v.tcpPort

/-- URLs of one authority have it in common. -/
theorem Authority.sameAuthority (a : Authority) (scheme : String) (rest rest' : List Char) :
    SameAuthority (a.url scheme rest) (a.url scheme rest') :=
  ⟨rfl, rfl, rfl, rfl, rfl⟩

/-- What of a web address is read as authority, and what after it. -/
theorem authority_of_parse (h : parse s = .ok u) (hweb : u.scheme = "http" ∨ u.scheme = "https") :
    ∃ a, readAuthority u.scheme (authorityOf (location s)) = .ok a ∧
      u = a.url u.scheme (afterAuthority (location s)) := by
  obtain ⟨rest, hscheme, hrest⟩ := parse_web h hweb
  rw [← location_of_scheme? hscheme, parseAuthority_special (isSpecial_of_web hweb)] at hrest
  cases ha : readAuthority u.scheme (authorityOf (location s)) with
  | error e =>
    rw [ha] at hrest
    contradiction
  | ok a =>
    rw [ha] at hrest
    exact ⟨a, rfl, (Except.ok.inj hrest).symm⟩

/-- A web URL has a location. -/
theorem location_ne_nil (h : parse s = .ok u) (hweb : u.scheme = "http" ∨ u.scheme = "https") :
    location s ≠ [] := by
  obtain ⟨a, ha, -⟩ := authority_of_parse h hweb
  intro hnil
  have hempty : readAuthority u.scheme (authorityOf (location s)) = .error .emptyHost := by
    rw [hnil]
    rfl
  rw [hempty] at ha
  contradiction

/-- With a slash at the end, the spaces and control characters before it are read too. -/
theorem parse_slash (h : parse s = .ok u) (hweb : u.scheme = "http" ∨ u.scheme = "https")
    {cs : List Char} (hcs : cs = location s ++ (blanksAtEnd s.toList ++ ['/'])) :
    parse (s ++ "/") =
      (readAuthority u.scheme (authorityOf cs)).map (Authority.url u.scheme (afterAuthority cs)) := by
  obtain ⟨rest, hscheme, -⟩ := parse_web h hweb
  have hne := location_ne_nil h hweb
  have hclean : cleaned s.toList ≠ [] := by
    intro hnil
    rw [hnil] at hscheme
    contradiction
  have hslash : (s ++ "/").toList = s.toList ++ ['/'] := by simp
  have hmore : scheme? (cleaned (s ++ "/").toList) =
      some (u.scheme, rest ++ (blanksAtEnd s.toList ++ ['/'])) := by
    rw [hslash, cleaned_slash hclean, scheme?_append hscheme]
  rw [location_of_scheme? hscheme] at hne hcs
  rw [parse_of_scheme? hmore hweb, (span_append hne _).2, ← hcs,
    parseAuthority_special (isSpecial_of_web hweb)]

/-- What is dropped at the end, and then a slash: all of it but the slash can belong to an authority. -/
theorem authorityOf_blanksAtEnd (cs : List Char) :
    authorityOf (blanksAtEnd cs ++ ['/']) = blanksAtEnd cs := by
  have hnone : (blanksAtEnd cs).any endsAuthority = false := by
    refine List.any_eq_false.mpr fun c hc => ?_
    exact forall_blank (P := fun c => ¬ endsAuthority c = true) (by decide) (mem_blanksAtEnd hc)
  have hslash : authorityOf ['/'] = [] := rfl
  rw [authorityOf_append_of_not hnone, hslash, List.append_nil]

/-- If a delimiter ends the authority or nothing was dropped after it, it stays as it is. -/
theorem parse_slash_of_closed (h : parse s = .ok u) (hweb : u.scheme = "http" ∨ u.scheme = "https")
    (hclosed : IsClosed s) : ∃ v, parse (s ++ "/") = .ok v ∧ SameAuthority v u := by
  obtain ⟨a, ha, hu⟩ := authority_of_parse h hweb
  let cs := location s ++ (blanksAtEnd s.toList ++ ['/'])
  have hsame : authorityOf cs = authorityOf (location s) := by
    cases hany : (location s).any endsAuthority with
    | true => exact authorityOf_append hany _
    | false =>
      have hblanks : blanksAtEnd s.toList = [] := hclosed.resolve_left (by simp [hany])
      have hall := authorityOf_append_of_not hany []
      rw [List.append_nil] at hall
      rw [authorityOf_append_of_not hany, authorityOf_blanksAtEnd, hblanks, hall]
      rfl
  refine ⟨a.url u.scheme (afterAuthority cs), ?_, ?_⟩
  · rw [parse_slash h hweb rfl, hsame, ha]
    rfl
  · rw [hu]
    exact a.sameAuthority ..

/-- Otherwise what was dropped is read as part of the authority, which does not end like that. -/
theorem parse_slash_of_open (h : parse s = .ok u) (hweb : u.scheme = "http" ∨ u.scheme = "https")
    (hopen : ¬ IsClosed s) : ∃ e, parse (s ++ "/") = .error e := by
  obtain ⟨hnone, hblanks⟩ := not_or.mp hopen
  have hany := Bool.eq_false_iff.mpr hnone
  have hlast : (blanksAtEnd s.toList).getLast hblanks ∈ blanksAtEnd s.toList := List.getLast_mem _
  have htext : authorityOf (location s ++ (blanksAtEnd s.toList ++ ['/'])) =
      location s ++ (blanksAtEnd s.toList).dropLast ++ [(blanksAtEnd s.toList).getLast hblanks] := by
    rw [authorityOf_append_of_not hany, authorityOf_blanksAtEnd, List.append_assoc,
      List.dropLast_concat_getLast]
  have hslash := backslash_not_mem_authorityOf (location s ++ (blanksAtEnd s.toList ++ ['/']))
  rw [htext, List.mem_append, not_or] at hslash
  obtain ⟨e, he⟩ := readAuthority_concat_blank (mem_blanksAtEnd hlast) hslash.1 u.scheme
  refine ⟨e, ?_⟩
  rw [parse_slash h hweb rfl, htext, he]
  rfl

end PullCache.Url
