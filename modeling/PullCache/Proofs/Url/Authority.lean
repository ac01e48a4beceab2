import PullCache.Proofs.Url.Domain
import PullCache.Proofs.Url.Path
/-!
# Proofs.Url.Authority

What stands between the slashes and the path of a URL of a common scheme: user, host and number. All of
it is read from the text up to the first delimiter, and everything else of the URL from the text after
that (`parseAuthority_special`). So more text after a delimiter changes nothing about it; and a space or
a control character before the delimiter is refused whatever comes before that
(`readAuthority_concat_blank`).
-/

namespace PullCache.Url

open Text

/-! ## Reading an authority -/

/-- Who and where, in the words of a URL. -/
structure Authority where
  username : String
  password : String
  host : Host
  tcpPort : Option Nat
  deriving DecidableEq, Repr

/-- The characters after which a path, a query or a fragment follows in the common schemes. -/
def endsAuthority (c : Char) : Bool :=
  isSlash true c || startsQuery c

/-- The text up to the first delimiter, and the text from there on. -/
def authorityOf (cs : List Char) : List Char :=
  cs.takeWhile fun c => !endsAuthority c

def afterAuthority (cs : List Char) : List Char :=
  cs.dropWhile fun c => !endsAuthority c

/-- Reads a text without delimiters. -/
def readAuthority (scheme : String) (cs : List Char) : Except UrlError Authority := do
  let user := parseUserinfo ((splitUserinfo cs).1.getD [])
  let located := spanHost false (splitUserinfo cs).2
  let host ← parseHost true located.1
  let found ← parsePort scheme (located.2.drop 1)
  return { username := user.1, password := user.2, host, tcpPort := found.1 }

/-- The URL with an authority and with the path, query and fragment of the text after it. -/
def Authority.url (scheme : String) (rest : List Char) (a : Authority) : Url :=
  withQueryAndFragment true
    { scheme
      username := a.username
      password := a.password
      host := some a.host
      tcpPort := a.tcpPort
      path := parsePath true (rest.takeWhile fun c => !startsQuery c) }
    (rest.dropWhile fun c => !startsQuery c)

variable {scheme : String} {cs : List Char} {c : Char}

/-- A backslash ends an authority. -/
theorem backslash_not_mem_authorityOf (cs : List Char) : '\\' ∉ authorityOf cs := by
  intro hmem
  have := List.all_eq_true.mp List.all_takeWhile _ hmem
  simp [endsAuthority, isSlash] at this

/-- What comes after a delimiter is not part of the authority. -/
theorem authorityOf_append (h : cs.any endsAuthority = true) (more : List Char) :
    authorityOf (cs ++ more) = authorityOf cs := by
  obtain ⟨d, hd, hends⟩ := List.any_eq_true.mp h
  have hne : cs.dropWhile (fun c => !endsAuthority c) ≠ [] := by
    intro hnil
    have hall : authorityOf cs = cs := by
      have := List.takeWhile_append_dropWhile (p := fun c => !endsAuthority c) (l := cs)
      rwa [hnil, List.append_nil] at this
    have := List.all_eq_true.mp List.all_takeWhile d (hall.symm ▸ hd)
    simp [hends] at this
  exact (span_append hne more).1

/-- Without a delimiter all of a text is. -/
theorem authorityOf_append_of_not (h : cs.any endsAuthority = false) (more : List Char) :
    authorityOf (cs ++ more) = cs ++ authorityOf more := by
  refine List.takeWhile_append_of_pos fun d hd => ?_
  simpa using List.any_eq_false.mp h d hd

/-- What follows the user is part of the text. -/
theorem mem_of_mem_splitUserinfo (h : c ∈ (splitUserinfo cs).2) : c ∈ cs := by
  unfold splitUserinfo at h
  split at h
  · exact List.mem_reverse.mp (List.takeWhile_subset _ (List.mem_reverse.mp h))
  · exact h

/-- Splitting the host off loses nothing. -/
theorem append_spanHost (inBrackets : Bool) (cs : List Char) :
    (spanHost inBrackets cs).1 ++ (spanHost inBrackets cs).2 = cs := by
  induction cs generalizing inBrackets with
  | nil => rfl
  | cons d rest ih =>
    rw [spanHost]
    split
    · rfl
    · simp [ih]

/-- A common scheme has no empty host. -/
theorem parseHost_nil : parseHost true [] = .error .emptyHost := rfl

/-- The host of a special scheme is never taken as it stands. -/
theorem ne_plain_of_parseHost {host : Host} (h : parseHost true cs = .ok host) (text : String) :
    host ≠ .plain text := by
  unfold parseHost specialHost plainHost at h
  rintro rfl
  grind

/-- Without a backslash nothing is left after a number. -/
theorem left_of_parsePort {tcpPort : Option Nat} {left : List Char} (hslash : '\\' ∉ cs)
    (h : parsePort scheme cs = .ok (tcpPort, left)) : left = [] := by
  have hhead : (cs.dropWhile isAsciiDigit).head? ≠ some '\\' := fun hhead =>
    hslash (List.dropWhile_subset _ (List.mem_of_mem_head? hhead))
  unfold parsePort at h
  dsimp only at h
  split at h
  · contradiction
  · split at h
    · contradiction
    · next hclosed =>
      have hempty : cs.dropWhile isAsciiDigit = [] := by simpa [hhead] using hclosed
      rw [hempty] at h
      split at h <;> cases h <;> rfl

/-- In a common scheme the authority is read from the text up to the first delimiter, and all the rest
from the text after that. -/
theorem parseAuthority_special (hspecial : isSpecial scheme = true) (cs : List Char) :
    parseAuthority scheme cs =
      (readAuthority scheme (authorityOf cs)).map (Authority.url scheme (afterAuthority cs)) := by
  have hends : ∀ c, (isSlash true c || startsQuery c) = endsAuthority c := fun _ => rfl
  have htext : (cs.takeWhile fun c => !endsAuthority c) = authorityOf cs := rfl
  have hafter : (cs.dropWhile fun c => !endsAuthority c) = afterAuthority cs := rfl
  have hslash := backslash_not_mem_authorityOf cs
  simp only [parseAuthority, readAuthority, hspecial, hends, htext, hafter]
  generalize authorityOf cs = text at hslash ⊢
  generalize afterAuthority cs = after
  have hlocated : '\\' ∉ (splitUserinfo text).2 := fun hmem => hslash (mem_of_mem_splitUserinfo hmem)
  generalize splitUserinfo text = found at hlocated ⊢
  obtain ⟨userinfo, located⟩ := found
  have hsplit := append_spanHost false located
  dsimp only at hlocated hsplit ⊢
  generalize spanHost false located = found at hsplit ⊢
  obtain ⟨hostText, portText⟩ := found
  obtain rfl : hostText ++ portText = located := hsplit
  simp only [bind, Except.bind, pure, Except.pure, throw, throwThe, MonadExceptOf.throw]
  by_cases hnobody : (userinfo == some [] && (hostText ++ portText).isEmpty && !after.isEmpty) = true
  · have hnil : hostText = [] := by
      simp only [Bool.and_eq_true, List.isEmpty_iff] at hnobody
      exact (List.append_eq_nil_iff.mp hnobody.1.2).1
    rw [if_pos hnobody, hnil, parseHost_nil]
    rfl
  · simp only [hnobody, if_false, Bool.false_eq_true]
    cases hhost : parseHost true hostText with
    | error e => rfl
    | ok host =>
      have hplain : (host == .plain "") = false := beq_false_of_ne (ne_plain_of_parseHost hhost "")
      simp only [hplain, Bool.false_and, Bool.false_eq_true, if_false]
      cases hport : parsePort scheme (portText.drop 1) with
      | error e => rfl
      | ok found =>
        obtain ⟨tcpPort, left⟩ := found
        have hportText : '\\' ∉ portText.drop 1 := fun hmem =>
          hlocated (List.mem_append_right _ (List.mem_of_mem_drop hmem))
        obtain rfl := left_of_parsePort hportText hport
        rfl

/-! ## Spaces and control characters at the end -/

/-- What is added at the end is added to the host. -/
theorem splitUserinfo_concat (hat : c ≠ '@') (cs : List Char) :
    splitUserinfo (cs ++ [c]) = ((splitUserinfo cs).1, (splitUserinfo cs).2 ++ [c]) := by
  have hcontains : (cs ++ [c]).contains '@' = cs.contains '@' := by simp [hat.symm]
  have hhost : (cs ++ [c]).reverse.takeWhile (· != '@') = c :: cs.reverse.takeWhile (· != '@') := by
    simp [hat]
  unfold splitUserinfo
  rw [hcontains]
  split
  · dsimp only
    rw [hhost, List.reverse_cons, List.length_append, List.length_append, List.length_singleton]
    have hcut : cs.length + 1 - ((cs.reverse.takeWhile (· != '@')).reverse.length + 1) - 1 =
        cs.length - (cs.reverse.takeWhile (· != '@')).reverse.length - 1 := by omega
    rw [hcut, List.take_append_of_le_length (by omega)]
  · rfl

/-- A character that ends no host is added to the host, or to what follows it. -/
theorem spanHost_concat (hcolon : c ≠ ':') (inBrackets : Bool) (cs : List Char) :
    spanHost inBrackets (cs ++ [c]) =
      if (spanHost inBrackets cs).2 = [] then ((spanHost inBrackets cs).1 ++ [c], [])
      else ((spanHost inBrackets cs).1, (spanHost inBrackets cs).2 ++ [c]) := by
  induction cs generalizing inBrackets with
  | nil => simp [spanHost, hcolon]
  | cons d rest ih =>
    rw [List.cons_append, spanHost, spanHost]
    split
    · simp
    · generalize (if d == '[' then true else if d == ']' then false else inBrackets) = within
      dsimp only
      rw [ih]
      split <;> rfl

/-- A host does not end in a space or a control character: an address ends in a bracket, and no name
ends in one. -/
theorem parseHost_concat_blank (hc : c.toNat ≤ 0x20) (cs : List Char) :
    ∃ e, parseHost true (cs ++ [c]) = .error e := by
  have hclose : c ≠ ']' := blank_ne hc (by decide)
  have hname := Domain.toAscii?_concat_blank hc cs
  have hlast : (cs ++ [c]).getLast? = some c := List.getLast?_concat
  rw [parseHost, if_pos rfl, if_neg (by simp)]
  generalize cs ++ [c] = text at hname hlast
  unfold specialHost
  split
  · next rest =>
    refine ⟨.invalidIpv6, ?_⟩
    have hrest : rest.getLast? ≠ some ']' := by
      intro h
      cases rest with
      | nil => contradiction
      | cons d rest =>
        rw [List.getLast?_cons_cons, h] at hlast
        exact hclose (Option.some.inj hlast).symm
    simp [plainHost, hrest]
  · rw [hname]
    exact ⟨_, rfl⟩

/-- Neither does a number. -/
theorem parsePort_concat_blank (hc : c.toNat ≤ 0x20) (hslash : '\\' ∉ cs) (scheme : String) :
    ∃ e, parsePort scheme (cs ++ [c]) = .error e := by
  have hdigit : isAsciiDigit c = false :=
    forall_blank (P := fun c => isAsciiDigit c = false) (by decide) hc
  have hleft : (cs ++ [c]).dropWhile isAsciiDigit ≠ [] := by
    rw [List.dropWhile_append]
    split <;> simp [hdigit]
  have hhead : ((cs ++ [c]).dropWhile isAsciiDigit).head? ≠ some '\\' := by
    intro hhead
    have hmem := List.dropWhile_subset _ (List.mem_of_mem_head? hhead)
    simp [hslash] at hmem
    exact blank_ne hc (by decide) hmem.symm
  refine ⟨.invalidPort, ?_⟩
  simp only [parsePort]
  split
  · rfl
  · simp [hleft, hhead]

/-- So the authority does not end in one. -/
theorem readAuthority_concat_blank (hc : c.toNat ≤ 0x20) (hslash : '\\' ∉ cs) (scheme : String) :
    ∃ e, readAuthority scheme (cs ++ [c]) = .error e := by
  have hlocated : '\\' ∉ (splitUserinfo cs).2 := fun hmem => hslash (mem_of_mem_splitUserinfo hmem)
  simp only [readAuthority, splitUserinfo_concat (blank_ne hc (d := '@') (by decide)),
    spanHost_concat (blank_ne hc (d := ':') (by decide))]
  generalize (splitUserinfo cs).2 = located at hlocated
  have hsplit := append_spanHost false located
  cases hport : (spanHost false located).2 with
  | nil =>
    obtain ⟨e, hhost⟩ := parseHost_concat_blank hc (spanHost false located).1
    exact ⟨e, by rw [if_pos rfl, hhost]; rfl⟩
  | cons colon digits =>
    have hdigits : '\\' ∉ digits := fun hmem =>
      hlocated (hsplit ▸ List.mem_append_right _ (hport ▸ List.mem_cons_of_mem _ hmem))
    obtain ⟨e, hnumber⟩ := parsePort_concat_blank hc hdigits scheme
    simp only [reduceCtorEq, if_false, List.cons_append, List.drop_succ_cons, List.drop_zero, hnumber]
    cases parseHost true (spanHost false located).1 with
    | error e => exact ⟨e, rfl⟩
    | ok host => exact ⟨e, rfl⟩

end PullCache.Url
