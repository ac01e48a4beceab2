import Mathlib.Data.List.TakeWhile
import PullCache.Proofs.Url.Host
import PullCache.Proofs.Url.Slash
/-!
# Proofs.Url.Normal

Web addresses in the form in which reading leaves them: with every character escaped that has to be, no
dot segments and no number that goes without saying (`Normal`). Reading always gives this form
(`normal_of_parse`), and the text of an address in this form is read as that address (`parse_text`).
-/

namespace PullCache

open Text

variable {c : Char} {cs : List Char} {s : String}

/-! ## Escapes -/

namespace Percent

variable {inSet : Char → Bool}

/-- What an encoded text is made of. -/
theorem mem_encode (h : c ∈ encode inSet cs) :
    c ∈ cs ∧ inSet c = false ∨ c = '%' ∨ ∃ n < 16, c = hexDigit n := by
  obtain ⟨d, hd, hc⟩ := List.mem_flatMap.mp h
  split at hc
  · obtain ⟨b, -, hb⟩ := List.mem_flatMap.mp hc
    have := b.toNat_lt
    simp only [encodeByte, List.mem_cons, List.not_mem_nil, or_false] at hb
    obtain rfl | rfl | rfl := hb
    · exact .inr (.inl rfl)
    · exact .inr (.inr ⟨_, by omega, rfl⟩)
    · exact .inr (.inr ⟨_, by omega, rfl⟩)
  · next hplain =>
    obtain rfl := List.mem_singleton.mp hc
    exact .inl ⟨hd, by simpa using hplain⟩

theorem encode_append (inSet : Char → Bool) (xs ys : List Char) :
    encode inSet (xs ++ ys) = encode inSet xs ++ encode inSet ys :=
  List.flatMap_append

/-- Encoding leaves nothing out. -/
theorem encode_eq_nil (h : encode inSet cs = []) : cs = [] := by
  cases cs with
  | nil => rfl
  | cons c cs =>
    obtain ⟨b, more, hbytes, -⟩ := Utf8.decodeChar_encodeChar c []
    rw [encode, List.flatMap_cons, hbytes] at h
    split at h <;> simp [encodeByte] at h

/-- What an encoded text starts with stood there before, unless it is an escape. -/
theorem cons_of_encode {d : Char} {rest : List Char}
    (h : encode inSet cs = d :: rest) (hd : d ≠ '%') :
    ∃ more, cs = d :: more ∧ encode inSet more = rest := by
  cases cs with
  | nil => contradiction
  | cons c cs =>
    rw [encode, List.flatMap_cons, ← encode] at h
    split at h
    · obtain ⟨b, more, hbytes, -⟩ := Utf8.decodeChar_encodeChar c []
      rw [hbytes, List.flatMap_cons] at h
      exact absurd (List.cons.inj h).1.symm hd
    · obtain ⟨rfl, htail⟩ := List.cons.inj h
      exact ⟨cs, rfl, htail⟩

/-- The set leaves escapes alone. -/
def Spares (inSet : Char → Bool) : Prop :=
  inSet '%' = false ∧ ∀ n < 16, inSet (hexDigit n) = false

instance (inSet : Char → Bool) : Decidable (Spares inSet) :=
  inferInstanceAs (Decidable (_ ∧ _))

/-- No character of the text is in the set, so that encoding it changes nothing. -/
def Encoded (inSet : Char → Bool) (s : String) : Prop :=
  ∀ c ∈ s.toList, inSet c = false

/-- What was encoded needs no encoding again. -/
theorem encoded_encode (h : Spares inSet) (cs : List Char) :
    Encoded inSet (String.ofList (encode inSet cs)) := by
  intro c hc
  rw [String.toList_ofList] at hc
  obtain ⟨-, hplain⟩ | rfl | ⟨n, hn, rfl⟩ := mem_encode hc
  · exact hplain
  · exact h.1
  · exact h.2 n hn

/-- Encoding changes nothing that needs none. -/
theorem encode_of_encoded (h : Encoded inSet s) : String.ofList (encode inSet s.toList) = s := by
  have hall : ∀ cs : List Char, (∀ c ∈ cs, inSet c = false) → encode inSet cs = cs := by
    intro cs hcs
    induction cs with
    | nil => rfl
    | cons c cs ih =>
      have hc := hcs c List.mem_cons_self
      have hrest := ih fun d hd => hcs d (List.mem_cons_of_mem c hd)
      rw [encode, List.flatMap_cons, ← encode, hrest]
      simp [hc]
  rw [hall s.toList h, String.ofList_toList]

/-- A text whose spaces and control characters are escaped holds none. -/
theorem Encoded.not_blank (h : Encoded inSet s) (hset : ∀ n < 0x21, inSet (Char.ofNat n) = true) :
    ∀ c ∈ s.toList, 0x20 < c.toNat := by
  intro c hc
  refine Nat.lt_of_not_le fun hblank => ?_
  have := forall_blank (P := fun c => inSet c = true) hset hblank
  rw [h c hc] at this
  contradiction

theorem Encoded.not_mem (h : Encoded inSet s) (hset : inSet c = true) : c ∉ s.toList := fun hc =>
  absurd ((h c hc).symm.trans hset) nofun

end Percent

namespace Url

open Percent (Encoded)

/-! ## Segments -/

/-- A segment that is read as itself. -/
structure NormalSegment (segment : String) : Prop where
  encoded : Encoded Percent.path segment
  noSlash : ∀ c ∈ segment.toList, isSlash true c = false
  noDots : isSingleDot segment.toList = false ∧ isDoubleDot segment.toList = false

theorem normalSegment_empty : NormalSegment "" :=
  ⟨nofun, nofun, rfl, rfl⟩

/-- The escapes of a path are spared in a path. -/
theorem spares_path : Percent.Spares Percent.path := by decide

/-- What does not start with an escaped dot keeps its first character. -/
theorem plainDots_cons (h : c = '%' → ∀ e rest, cs = '2' :: e :: rest → e ≠ 'e' ∧ e ≠ 'E') :
    plainDots (c :: cs) = c :: plainDots cs := by
  rw [plainDots]
  · rintro rest rfl rfl
    exact (h rfl 'e' rest rfl).1 rfl
  · rintro rest rfl rfl
    exact (h rfl 'E' rest rfl).2 rfl

/-- No escape of another byte is taken for a dot. -/
theorem plainDots_encodeByte {b : UInt8} (hb : b ≠ 0x2E) (cs : List Char) :
    plainDots (Percent.encodeByte b ++ cs) = Percent.encodeByte b ++ plainDots cs := by
  have hdigit : ∀ n < 16, Percent.hexDigit n ≠ '%' ∧ Percent.hexDigit n ≠ 'e' ∧
      (Percent.hexDigit n = '2' → n = 2) ∧ (Percent.hexDigit n = 'E' → n = 14) := by decide
  have hlt := b.toNat_lt
  have hhigh := hdigit (b.toNat / 16) (by omega)
  have hlow := hdigit (b.toNat % 16) (by omega)
  have hplain : ∀ {d : Char} {cs : List Char}, d ≠ '%' → plainDots (d :: cs) = d :: plainDots cs :=
    fun hd => plainDots_cons fun heq => absurd heq hd
  simp only [Percent.encodeByte, List.cons_append, List.nil_append]
  rw [plainDots_cons, hplain hhigh.1, hplain hlow.1]
  rintro - e rest heq
  obtain ⟨h2, heq⟩ := List.cons.inj heq
  obtain ⟨rfl, -⟩ := List.cons.inj heq
  refine ⟨hlow.2.1, fun hE => hb (UInt8.toNat_inj.mp ?_)⟩
  have htwo := hhigh.2.2.1 h2
  have hfourteen := hlow.2.2.2 hE
  change b.toNat = 46
  omega

/-- Only an escaped dot is read as a dot. -/
theorem plainDots_escapes {bs : Bytes} (h : ∀ b ∈ bs, b ≠ 0x2E) (cs : List Char) :
    plainDots (bs.flatMap Percent.encodeByte ++ cs) =
      bs.flatMap Percent.encodeByte ++ plainDots cs := by
  induction bs with
  | nil => rfl
  | cons b bs ih =>
    rw [List.flatMap_cons, List.append_assoc, plainDots_encodeByte (h b List.mem_cons_self),
      ih fun d hd => h d (List.mem_cons_of_mem b hd), List.append_assoc]

/-- A character that may stand in a path stays. -/
theorem encode_path_cons (h : Percent.path c = false) :
    Percent.encode Percent.path (c :: cs) = c :: Percent.encode Percent.path cs := by
  rw [Percent.encode, List.flatMap_cons, h]
  rfl

/-- Encoding leaves the dots of a piece as they are, escaped or not. -/
theorem plainDots_encode (piece : List Char) :
    plainDots (Percent.encode Percent.path piece) = Percent.encode Percent.path (plainDots piece) := by
  have hplain : Percent.path '%' = false ∧ Percent.path '2' = false ∧ Percent.path 'e' = false ∧
      Percent.path 'E' = false ∧ Percent.path '.' = false := by decide
  fun_induction plainDots piece with
  | case1 rest ih =>
    simp only [encode_path_cons, hplain]
    rw [plainDots, ih]
  | case2 rest ih =>
    simp only [encode_path_cons, hplain]
    rw [plainDots, ih]
  | case3 c rest hlower hupper ih =>
    by_cases hset : Percent.path c = true
    · have hbytes : ∀ b ∈ Utf8.encodeChar c, b ≠ 0x2E := fun b hb => by
        refine Utf8.ne_of_mem_encodeChar (d := '.') (by decide) ?_ hb
        rintro rfl
        contradiction
      have hescape : ∀ cs, Percent.encode Percent.path (c :: cs) =
          (Utf8.encodeChar c).flatMap Percent.encodeByte ++ Percent.encode Percent.path cs := by
        intro cs
        rw [Percent.encode, List.flatMap_cons, if_pos hset]
        rfl
      rw [hescape, hescape, plainDots_escapes hbytes, ih]
    · rw [encode_path_cons (by simpa using hset), encode_path_cons (by simpa using hset), ← ih]
      refine plainDots_cons ?_
      rintro rfl e more hmore
      obtain ⟨rest, rfl, hrest⟩ := Percent.cons_of_encode hmore (by decide)
      constructor
      · rintro rfl
        obtain ⟨rest, rfl, -⟩ := Percent.cons_of_encode hrest (by decide)
        exact hlower rest rfl rfl
      · rintro rfl
        obtain ⟨rest, rfl, -⟩ := Percent.cons_of_encode hrest (by decide)
        exact hupper rest rfl rfl
  | case4 => rfl

/-- A text as it stands in one part of a URL. -/
def escaped (inSet : Char → Bool) (cs : List Char) : String :=
  String.ofList (Percent.encode inSet cs)

theorem escaped_eq_empty {inSet : Char → Bool} (h : escaped inSet cs = "") : cs = [] :=
  Percent.encode_eq_nil (by simpa [escaped] using congrArg String.toList h)

/-- An encoded piece is a dot segment only if the piece was one. -/
theorem isDot_encode {piece : List Char} (h : isSingleDot piece = false ∧ isDoubleDot piece = false) :
    isSingleDot (Percent.encode Percent.path piece) = false ∧
      isDoubleDot (Percent.encode Percent.path piece) = false := by
  simp only [isSingleDot, isDoubleDot, beq_eq_false_iff_ne, plainDots_encode] at h ⊢
  refine ⟨fun hone => h.1 ?_, fun htwo => h.2 ?_⟩
  · obtain ⟨more, hmore, hnil⟩ := Percent.cons_of_encode hone (by decide)
    rw [hmore, Percent.encode_eq_nil hnil]
  · obtain ⟨more, hmore, hone⟩ := Percent.cons_of_encode htwo (by decide)
    obtain ⟨rest, rfl, hnil⟩ := Percent.cons_of_encode hone (by decide)
    rw [hmore, Percent.encode_eq_nil hnil]

theorem isSlash_hexDigit : ∀ n < 16, isSlash true (Percent.hexDigit n) = false := by
  decide

/-- A piece between slashes that is no dot segment makes a normal segment. -/
theorem normalSegment_encode {piece : List Char} (hslash : ∀ c ∈ piece, isSlash true c = false)
    (hdots : isSingleDot piece = false ∧ isDoubleDot piece = false) :
    NormalSegment (String.ofList (Percent.encode Percent.path piece)) where
  encoded := Percent.encoded_encode spares_path piece
  noSlash c hc := by
    rw [String.toList_ofList] at hc
    obtain ⟨hpiece, -⟩ | rfl | ⟨n, hn, rfl⟩ := Percent.mem_encode hc
    · exact hslash c hpiece
    · rfl
    · exact isSlash_hexDigit n hn
  noDots := by
    rw [String.toList_ofList]
    exact isDot_encode hdots

/-- Segments as reading a path leaves them. -/
def NormalSegments (list : List String) : Prop :=
  ∀ segment ∈ list, NormalSegment segment

/-- Normal segments after normal segments are normal. -/
theorem NormalSegments.append {xs ys : List String} (hxs : NormalSegments xs) (hys : NormalSegments ys) :
    NormalSegments (xs ++ ys) := fun segment h =>
  (List.mem_append.mp h).elim (hxs segment) (hys segment)

theorem NormalSegments.dropLast {xs : List String} (hxs : NormalSegments xs) :
    NormalSegments xs.dropLast := fun segment h => hxs segment (List.dropLast_subset xs h)

theorem normalSegments_singleton {segment : String} (h : NormalSegment segment) :
    NormalSegments [segment] := fun _ hmem => List.mem_singleton.mp hmem ▸ h

/-- Adding pieces to normal segments resolves the dot segments and gives normal ones. -/
theorem NormalSegments.addSegments {before : List String} {pieces : List (List Char)}
    (hbefore : NormalSegments before) (hpieces : ∀ piece ∈ pieces, ∀ c ∈ piece, isSlash true c = false) :
    NormalSegments (addSegments before pieces) := by
  have hempty := normalSegments_singleton normalSegment_empty
  fun_induction Url.addSegments before pieces with
  | case1 => exact hbefore
  | case2 before last => exact hbefore.dropLast.append hempty
  | case3 before last => exact hbefore.append hempty
  | case4 before last hdouble hsingle =>
    refine hbefore.append (normalSegments_singleton (normalSegment_encode (hpieces last (by simp)) ?_))
    exact ⟨by simpa using hsingle, by simpa using hdouble⟩
  | case5 before segment rest hne hdouble ih =>
    exact ih hbefore.dropLast fun piece h => hpieces piece (List.mem_cons_of_mem _ h)
  | case6 before segment rest hne hdouble hsingle ih =>
    exact ih hbefore fun piece h => hpieces piece (List.mem_cons_of_mem _ h)
  | case7 before segment rest hne hdouble hsingle ih =>
    refine ih (hbefore.append (normalSegments_singleton (normalSegment_encode
      (hpieces segment (by simp)) ?_))) fun piece h => hpieces piece (List.mem_cons_of_mem _ h)
    exact ⟨by simpa using hsingle, by simpa using hdouble⟩

theorem normalSegments_parseSegments (cs : List Char) : NormalSegments (parseSegments true cs) :=
  NormalSegments.addSegments nofun fun _ hpiece => not_isSep_of_mem_splitOn hpiece

/-- Segments in this form are added as they are. -/
theorem addSegments_of_normal (before : List String) {list : List String} (h : NormalSegments list) :
    addSegments before (list.map String.toList) = before ++ list := by
  have hencode : ∀ {segment}, NormalSegment segment →
      String.ofList (Percent.encode Percent.path segment.toList) = segment := fun hsegment =>
    Percent.encode_of_encoded hsegment.encoded
  induction list generalizing before with
  | nil => exact (List.append_nil before).symm
  | cons segment rest ih =>
    have hsegment := h segment List.mem_cons_self
    cases rest with
    | nil =>
      rw [List.map_cons, List.map_nil, addSegments, hsegment.noDots.1, hsegment.noDots.2,
        hencode hsegment]
      rfl
    | cons next more =>
      have hmore := ih (before ++ [segment]) fun x hx => h x (List.mem_cons_of_mem segment hx)
      rw [List.map_cons, addSegments, hsegment.noDots.1, hsegment.noDots.2, hencode hsegment]
      · simpa using hmore
      · simp

/-- A path in this form is read from its text. -/
theorem parseSegments_intercalate {list : List String} (hne : list ≠ []) (h : NormalSegments list) :
    parseSegments true ("/".intercalate list).toList = list := by
  have hsplit : splitOn (isSlash true) ("/".intercalate list).toList = list.map String.toList := by
    rw [String.toList_intercalate]
    refine splitOn_intercalate (by simpa using hne) ?_ (by decide)
    intro piece hpiece
    obtain ⟨segment, hsegment, rfl⟩ := List.mem_map.mp hpiece
    exact (h segment hsegment).noSlash
  rw [parseSegments, hsplit, addSegments_of_normal [] h, List.nil_append]

/-! ## Authorities -/

/-- An authority as reading leaves it. -/
structure NormalAuthority (scheme : String) (a : Authority) : Prop where
  username : Encoded Percent.userinfo a.username
  password : Encoded Percent.userinfo a.password
  host : NormalHost a.host
  tcpPort : ∀ n, a.tcpPort = some n → n ≤ 65535 ∧ defaultPort? scheme ≠ some n

variable {scheme : String} {a : Authority}

theorem spares_userinfo : Percent.Spares Percent.userinfo := by decide

/-- A port that was read is small enough, and not the usual one of the scheme. -/
theorem tcpPort_of_parsePort {tcpPort : Option Nat} {left : List Char}
    (h : parsePort scheme cs = .ok (tcpPort, left)) :
    ∀ n, tcpPort = some n → n ≤ 65535 ∧ defaultPort? scheme ≠ some n := by
  rintro n rfl
  unfold parsePort at h
  dsimp only at h
  split at h
  · contradiction
  · next hfits =>
    split at h
    · contradiction
    · split at h
      · cases h
      · next hwritten =>
        cases h
        refine ⟨Nat.le_of_not_lt hfits, fun himplied => hwritten ?_⟩
        simp [himplied]

/-- Whatever text an authority is read from, it is normal. -/
theorem normalAuthority_of_readAuthority (h : readAuthority scheme cs = .ok a) :
    NormalAuthority scheme a := by
  unfold readAuthority at h
  dsimp only [bind, Except.bind] at h
  cases hhost : parseHost true (spanHost false (splitUserinfo cs).2).1 with
  | error e => rw [hhost] at h; contradiction
  | ok host =>
    rw [hhost] at h
    cases hport : parsePort scheme ((spanHost false (splitUserinfo cs).2).2.drop 1) with
    | error e => rw [hport] at h; contradiction
    | ok found =>
      rw [hport] at h
      cases h
      exact {
        username := Percent.encoded_encode spares_userinfo _
        password := Percent.encoded_encode spares_userinfo _
        host := normalHost_of_parseHost hhost
        tcpPort := tcpPort_of_parsePort hport }

/-- The number of an authority, with the colon before it. -/
def Authority.portText (a : Authority) : List Char :=
  match a.tcpPort with
  | some n => ':' :: Nat.toDigits 10 n
  | none => []

/-- User and password of an authority, with the sign after them. -/
def Authority.userText (a : Authority) : List Char :=
  if a.username = "" ∧ a.password = "" then []
  else a.username.toList ++ (if a.password = "" then [] else ':' :: a.password.toList) ++ ['@']

def Authority.text (a : Authority) : List Char :=
  a.userText ++ (a.host.text.toList ++ a.portText)

/-- A port begins where the last group of an address ends. -/
theorem Authority.endsGroup_portText (a : Authority) : Address.EndsGroup a.portText := by
  unfold portText
  split
  · exact .inr ⟨_, rfl⟩
  · exact .inl rfl

/-- Without an at sign there is no user. -/
theorem splitUserinfo_of_not_mem (h : '@' ∉ cs) : splitUserinfo cs = (none, cs) := by
  rw [splitUserinfo, if_neg (by simpa using h)]

/-- The last at sign ends the user. -/
theorem splitUserinfo_append {user located : List Char} (h : '@' ∉ located) :
    splitUserinfo (user ++ '@' :: located) = (some user, located) := by
  have hhost : (user ++ '@' :: located).reverse.takeWhile (· != '@') = located.reverse := by
    rw [List.reverse_append, List.reverse_cons, List.append_assoc,
      List.takeWhile_append_of_pos (by
        intro c hc
        rw [bne_iff_ne]
        rintro rfl
        exact h (List.mem_reverse.mp hc))]
    simp
  have hcut : (user ++ '@' :: located).length - located.length - 1 = user.length := by
    simp
    omega
  rw [splitUserinfo, if_pos (by simp), hhost, List.reverse_reverse]
  dsimp only
  rw [hcut, List.take_left]

/-- Hosts and ports have no at sign. -/
theorem NormalAuthority.at_not_mem (h : NormalAuthority scheme a) :
    '@' ∉ a.host.text.toList ++ a.portText := by
  rw [List.mem_append, not_or]
  refine ⟨fun hmem => (h.host.isHostChar '@' hmem).2.1 rfl, fun hmem => ?_⟩
  unfold Authority.portText at hmem
  split at hmem
  · obtain hmem | hmem := List.mem_cons.mp hmem
    · contradiction
    · exact absurd (isAsciiDigit_of_mem_toDigits hmem) (by decide)
  · contradiction

/-- User and password are read from what stands before the last `@`. -/
theorem NormalAuthority.splitUserinfo_text (h : NormalAuthority scheme a) :
    parseUserinfo ((splitUserinfo a.text).1.getD []) = (a.username, a.password) ∧
      (splitUserinfo a.text).2 = a.host.text.toList ++ a.portText := by
  have hlocated := h.at_not_mem
  have huser : String.ofList (Percent.encode Percent.userinfo a.username.toList) = a.username :=
    Percent.encode_of_encoded h.username
  have hpassword : String.ofList (Percent.encode Percent.userinfo a.password.toList) = a.password :=
    Percent.encode_of_encoded h.password
  have hcolon : ∀ c ∈ a.username.toList, (c != ':') = true := by
    intro c hc
    rw [bne_iff_ne]
    rintro rfl
    exact h.username.not_mem (by decide) hc
  unfold Authority.text Authority.userText
  split
  · next hnobody =>
    rw [List.nil_append, splitUserinfo_of_not_mem hlocated]
    refine ⟨?_, rfl⟩
    rw [hnobody.1, hnobody.2]
    rfl
  · rw [List.append_assoc, List.singleton_append, splitUserinfo_append hlocated]
    refine ⟨?_, rfl⟩
    rw [Option.getD_some, parseUserinfo]
    split
    · next hnone =>
      rw [List.append_nil, List.takeWhile_eq_self_iff.mpr hcolon, List.dropWhile_eq_nil_iff.mpr hcolon,
        hnone]
      exact Prod.ext huser rfl
    · rw [List.takeWhile_append_of_pos hcolon, List.dropWhile_append_of_pos hcolon]
      simp [huser, hpassword]

/-- A port is read back as it was written. -/
theorem parsePort_portText (h : ∀ n, a.tcpPort = some n → n ≤ 65535 ∧ defaultPort? scheme ≠ some n) :
    parsePort scheme (a.portText.drop 1) = .ok (a.tcpPort, []) := by
  unfold Authority.portText
  split
  · next n hn =>
    obtain ⟨hfits, hwritten⟩ := h n hn
    have hdigits : ∀ c ∈ Nat.toDigits 10 n, isAsciiDigit c = true := fun c hc =>
      isAsciiDigit_of_mem_toDigits hc
    have htake := List.takeWhile_eq_self_iff.mpr hdigits
    have hdrop := List.dropWhile_eq_nil_iff.mpr hdigits
    have hsmall : ¬ n > 65535 := Nat.not_lt.mpr hfits
    rw [List.drop_succ_cons, List.drop_zero]
    simp [parsePort, htake, hdrop, decimalValue_toDigits, hsmall, hwritten, hn, Nat.toDigits_ne_nil]
  · next hnone =>
    rw [hnone]
    rfl

/-- The text of an authority is read as that authority. -/
theorem NormalAuthority.readAuthority_text (h : NormalAuthority scheme a) :
    readAuthority scheme a.text = .ok a := by
  obtain ⟨huser, hlocated⟩ := h.splitUserinfo_text
  simp only [readAuthority, huser, hlocated, h.host.spanHost_text a.endsGroup_portText,
    h.host.parseHost_text, parsePort_portText h.tcpPort]
  rfl

/-- A character that neither ends an authority nor is a space. -/
def IsAuthorityChar (c : Char) : Prop :=
  endsAuthority c = false ∧ 0x20 < c.toNat

instance (c : Char) : Decidable (IsAuthorityChar c) :=
  inferInstanceAs (Decidable (_ ∧ _))

/-- Encoded users keep clear of what ends an authority. -/
theorem isAuthorityChar_of_encoded (h : Encoded Percent.userinfo s) :
    ∀ c ∈ s.toList, IsAuthorityChar c := by
  intro c hc
  have hne : ∀ d, Percent.userinfo d = true → c ≠ d := by
    rintro d hd rfl
    exact h.not_mem hd hc
  refine ⟨?_, h.not_blank (by decide) c hc⟩
  simp [endsAuthority, isSlash, startsQuery, hne '/' (by decide), hne '\\' (by decide),
    hne '?' (by decide), hne '#' (by decide)]

/-- No character of an authority ends it. -/
theorem NormalAuthority.isAuthorityChar (h : NormalAuthority scheme a) :
    ∀ c ∈ a.text, IsAuthorityChar c := by
  intro c hc
  rw [Authority.text, List.mem_append, List.mem_append] at hc
  obtain hc | hc | hc := hc
  · have huser := isAuthorityChar_of_encoded h.username c
    have hpassword := isAuthorityChar_of_encoded h.password c
    unfold Authority.userText at hc
    split at hc
    · contradiction
    · rw [List.mem_append, List.mem_append, List.mem_singleton] at hc
      obtain (hc | hc) | rfl := hc
      · exact huser hc
      · split at hc
        · contradiction
        · obtain rfl | hc := List.mem_cons.mp hc
          · decide
          · exact hpassword hc
      · decide
  · have := h.host.isHostChar c hc
    exact ⟨this.1, this.2.2⟩
  · unfold Authority.portText at hc
    split at hc
    · obtain rfl | hc := List.mem_cons.mp hc
      · decide
      · obtain ⟨d, hd, rfl⟩ := exists_of_mem_toDigits (by decide) hc
        exact (by decide : ∀ d < 10, IsAuthorityChar (Nat.digitChar d)) d hd
    · contradiction

/-- No authority is written as the empty text. -/
theorem NormalAuthority.text_ne_nil (h : NormalAuthority scheme a) : a.text ≠ [] := by
  have := h.host.text_ne_nil
  simp [Authority.text, this]

/-! ## Addresses -/

/-- A web address as reading leaves it. -/
structure Normal (u : Url) : Prop where
  web : u.scheme = "http" ∨ u.scheme = "https"
  authority : ∃ a, NormalAuthority u.scheme a ∧ u.username = a.username ∧ u.password = a.password ∧
    u.host = some a.host ∧ u.tcpPort = a.tcpPort
  path : ∃ list, u.path = .segments list ∧ list ≠ [] ∧ NormalSegments list
  query : ∀ query, u.query = some query → Encoded (Percent.query true) query
  fragment : ∀ fragment, u.fragment = some fragment → Encoded Percent.fragment fragment

/-- Whatever text a path is read from, it has segments, and they are normal. -/
theorem normalSegments_parsePath (cs : List Char) :
    ∃ list, parsePath true cs = .segments list ∧ list ≠ [] ∧ NormalSegments list := by
  have hsegments : ∀ cs, parseSegments true cs ≠ [] := fun cs => addSegments_ne_nil (splitOn_ne_nil cs)
  cases cs with
  | nil => exact ⟨[""], rfl, by simp, normalSegments_singleton normalSegment_empty⟩
  | cons c rest =>
    rw [parsePath]
    split
    · exact ⟨_, rfl, hsegments rest, normalSegments_parseSegments rest⟩
    · exact ⟨_, rfl, hsegments _, normalSegments_parseSegments _⟩

/-- Reading a web address gives it in this form. -/
theorem normal_of_parse {u : Url} (h : parse s = .ok u)
    (hweb : u.scheme = "http" ∨ u.scheme = "https") : Normal u := by
  obtain ⟨a, ha, hu⟩ := authority_of_parse h hweb
  have hauthority := normalAuthority_of_readAuthority ha
  generalize afterAuthority (location s) = after at hu
  generalize hscheme : u.scheme = scheme at hauthority hu hweb
  subst hu
  refine ⟨hweb, ⟨a, hauthority, rfl, rfl, rfl, rfl⟩, normalSegments_parsePath _, ?_, ?_⟩
  · intro query hquery
    unfold Authority.url withQueryAndFragment parseQuery at hquery
    dsimp only at hquery
    split at hquery
    · cases hquery
      exact Percent.encoded_encode (by decide) _
    · contradiction
  · intro fragment hfragment
    unfold Authority.url withQueryAndFragment parseFragment at hfragment
    dsimp only at hfragment
    split at hfragment
    · cases hfragment
      exact Percent.encoded_encode (by decide) _
    · contradiction

/-! ## The text of an address -/

/-- Query and fragment, with the signs before them. -/
def queryText (u : Url) : List Char :=
  match u.query with
  | some query => '?' :: query.toList
  | none => []

def fragmentText (u : Url) : List Char :=
  match u.fragment with
  | some fragment => '#' :: fragment.toList
  | none => []

/-- Everything from the path on. -/
def tailText (u : Url) : List Char :=
  u.path.text.toList ++ (u.queryText ++ u.fragmentText)

variable {u : Url}

/-- The text of a URL with a host, part by part. -/
theorem text_eq (husername : u.username = a.username) (hpassword : u.password = a.password)
    (hhost : u.host = some a.host) (hport : u.tcpPort = a.tcpPort) :
    u.text.toList = u.scheme.toList ++ ':' :: '/' :: '/' :: (a.text ++ u.tailText) := by
  have hcredentials : u.credentials.toList = a.userText := by
    rw [credentials, Authority.userText, husername, hpassword]
    simp only [String.isEmpty_iff]
    split
    · rfl
    · split <;> simp
  have hauthority : u.authority.toList = '/' :: '/' :: a.text := by
    rw [authority, hhost, hport, Authority.text, Authority.portText]
    cases a.tcpPort with
    | none => simp [hcredentials]
    | some n => simp [hcredentials]
  rw [text, tailText, queryText, fragmentText]
  cases u.query <;> cases u.fragment <;> simp [hauthority]

/-- Nothing is dropped from a text without spaces and control characters. -/
theorem cleaned_of_not_blank (h : ∀ c ∈ cs, 0x20 < c.toNat) : cleaned cs = cs := by
  have hedge : ∀ c ∈ cs, isEdge c = false := fun c hc => by
    simpa [isEdge] using h c hc
  have hfront : cs.dropWhile isEdge = cs := by
    cases cs with
    | nil => rfl
    | cons c cs => exact List.dropWhile_cons_of_neg (by simp [hedge c List.mem_cons_self])
  have hback : cs.reverse.dropWhile isEdge = cs.reverse := by
    cases hreverse : cs.reverse with
    | nil => rfl
    | cons c rest =>
      have hc : c ∈ cs := List.mem_reverse.mp (hreverse ▸ List.mem_cons_self)
      exact List.dropWhile_cons_of_neg (by simp [hedge c hc])
  rw [cleaned, hfront, hback, List.reverse_reverse, List.filter_eq_self]
  intro c hc
  have hlarge := h c hc
  have hignored : isIgnored c = false := by
    rw [Bool.eq_false_iff]
    intro htrue
    simp only [isIgnored, Bool.or_eq_true, beq_iff_eq] at htrue
    obtain (rfl | rfl) | rfl := htrue <;> exact absurd hlarge (by decide)
  rw [hignored]
  rfl

/-- The two schemes of the web are read back. -/
theorem scheme?_web (hweb : scheme = "http" ∨ scheme = "https") (rest : List Char) :
    scheme? (scheme.toList ++ ':' :: rest) = some (scheme, rest) := by
  obtain rfl | rfl := hweb <;> rfl

/-- A path is written with a slash before each segment. -/
theorem NormalSegments.path_text {list : List String} (hne : list ≠ []) :
    (UrlPath.segments list).text.toList = '/' :: ("/".intercalate list).toList := by
  rw [UrlPath.text_segments hne]
  simp

/-- A path in this form holds no character that ends a path, and no space. -/
theorem NormalSegments.mem_text {list : List String} (h : NormalSegments list)
    (hc : c ∈ (UrlPath.segments list).text.toList) : startsQuery c = false ∧ 0x20 < c.toNat := by
  by_cases hne : list = []
  · subst hne
    contradiction
  · rw [path_text hne, List.mem_cons] at hc
    obtain rfl | hc := hc
    · decide
    · have hsplit := intercalate_splitOn '/' ("/".intercalate list).toList
      have hpieces : splitOn (· == '/') ("/".intercalate list).toList = list.map String.toList :=
        splitOn_text hne fun segment hsegment hslash =>
          absurd ((h segment hsegment).noSlash '/' hslash) (by decide)
      by_cases hslash : c = '/'
      · subst hslash
        decide
      · obtain ⟨piece, hpiece, hmem⟩ : ∃ piece ∈ splitOn (· == '/') ("/".intercalate list).toList,
            c ∈ piece := mem_splitOn (by simpa using hslash) hc
        rw [hpieces] at hpiece
        obtain ⟨segment, hsegment, rfl⟩ := List.mem_map.mp hpiece
        have hencoded := (h segment hsegment).encoded
        refine ⟨?_, hencoded.not_blank (by decide) c hmem⟩
        simp only [startsQuery, Bool.or_eq_false_iff, beq_eq_false_iff_ne]
        constructor
        all_goals
          rintro rfl
          exact hencoded.not_mem (by decide) hmem

/-- No blank is left in a normal URL. -/
theorem Normal.mem_tailText (h : Normal u) : ∀ c ∈ u.tailText, 0x20 < c.toNat := by
  intro c hc
  rw [tailText, List.mem_append, List.mem_append] at hc
  obtain hc | hc | hc := hc
  · obtain ⟨list, hpath, -, hnormal⟩ := h.path
    rw [hpath] at hc
    exact (hnormal.mem_text hc).2
  · unfold queryText at hc
    split at hc
    · next query hquery =>
      obtain rfl | hc := List.mem_cons.mp hc
      · decide
      · exact (h.query query hquery).not_blank (by decide) c hc
    · contradiction
  · unfold fragmentText at hc
    split at hc
    · next fragment hfragment =>
      obtain rfl | hc := List.mem_cons.mp hc
      · decide
      · exact (h.fragment fragment hfragment).not_blank (by decide) c hc
    · contradiction

/-- The path is read back as it was written. -/
theorem Normal.parsePath_text (h : Normal u) : parsePath true u.path.text.toList = u.path := by
  obtain ⟨list, hpath, hne, hnormal⟩ := h.path
  rw [hpath, NormalSegments.path_text hne]
  exact congrArg UrlPath.segments (parseSegments_intercalate hne hnormal)

/-- A query ends where the fragment starts. -/
theorem Normal.span_query (h : Normal u) {query : String} (hquery : u.query = some query) :
    (query.toList ++ u.fragmentText).takeWhile (· != '#') = query.toList ∧
      (query.toList ++ u.fragmentText).dropWhile (· != '#') = u.fragmentText := by
  have hinside : ∀ c ∈ query.toList, (c != '#') = true := by
    intro c hc
    rw [bne_iff_ne]
    rintro rfl
    exact (h.query query hquery).not_mem (by decide) hc
  rw [List.takeWhile_append_of_pos hinside, List.dropWhile_append_of_pos hinside, fragmentText]
  split
  · exact ⟨List.append_nil _, rfl⟩
  · exact ⟨List.append_nil _, rfl⟩

/-- The query is read back as it was written. -/
theorem Normal.parseQuery_text (h : Normal u) :
    parseQuery true (u.queryText ++ u.fragmentText) = u.query := by
  unfold queryText
  split
  · next query hquery =>
    rw [List.cons_append, parseQuery, (h.span_query hquery).1,
      Percent.encode_of_encoded (h.query query hquery), hquery]
  · next hnone =>
    rw [hnone, List.nil_append, fragmentText]
    split <;> rfl

/-- The fragment is read back as it was written. -/
theorem Normal.parseFragment_text (h : Normal u) :
    parseFragment ((u.queryText ++ u.fragmentText).dropWhile (· != '#')) = u.fragment := by
  have hdrop : (u.queryText ++ u.fragmentText).dropWhile (· != '#') = u.fragmentText := by
    unfold queryText
    split
    · next query hquery =>
      rw [List.cons_append, List.dropWhile_cons_of_pos (by decide), (h.span_query hquery).2]
    · unfold fragmentText
      split <;> rfl
  rw [hdrop, fragmentText]
  split
  · next fragment hfragment =>
    rw [parseFragment, Percent.encode_of_encoded (h.fragment fragment hfragment), hfragment]
  · next hnone =>
    rw [hnone]
    rfl

/-- Path, query and fragment are read from their texts. -/
theorem Normal.url_tailText (h : Normal u) (husername : u.username = a.username)
    (hpassword : u.password = a.password) (hhost : u.host = some a.host)
    (hport : u.tcpPort = a.tcpPort) : a.url u.scheme u.tailText = u := by
  have hinPath : ∀ c ∈ u.path.text.toList, (!startsQuery c) = true := by
    obtain ⟨list, hpath, -, hnormal⟩ := h.path
    intro c hc
    rw [hpath] at hc
    rw [(hnormal.mem_text hc).1]
    rfl
  have hafter : (u.queryText ++ u.fragmentText).takeWhile (fun c => !startsQuery c) = [] ∧
      (u.queryText ++ u.fragmentText).dropWhile (fun c => !startsQuery c) =
        u.queryText ++ u.fragmentText := by
    unfold queryText fragmentText
    cases u.query <;> cases u.fragment <;> exact ⟨rfl, rfl⟩
  unfold Authority.url withQueryAndFragment tailText
  rw [List.takeWhile_append_of_pos hinPath, List.dropWhile_append_of_pos hinPath, hafter.1, hafter.2,
    List.append_nil, h.parsePath_text, h.parseQuery_text, h.parseFragment_text, ← husername,
    ← hpassword, ← hhost, ← hport]

/-- Nothing is dropped from the text of an address in this form. -/
theorem Normal.cleaned_text (h : Normal u) : cleaned u.text.toList = u.text.toList := by
  obtain ⟨a, ha, husername, hpassword, hhost, hport⟩ := h.authority
  have hscheme : ∀ c ∈ u.scheme.toList, 0x20 < c.toNat := by
    obtain hscheme | hscheme := h.web <;> rw [hscheme] <;> exact forall_of_all (by decide)
  refine cleaned_of_not_blank fun c hc => ?_
  rw [text_eq husername hpassword hhost hport] at hc
  simp only [List.mem_append, List.mem_cons] at hc
  obtain hc | rfl | rfl | rfl | hc | hc := hc
  · exact hscheme c hc
  · decide
  · decide
  · decide
  · exact (ha.isAuthorityChar c hc).2
  · exact h.mem_tailText c hc

/-- The text of an authority ends where a path starts. -/
theorem NormalAuthority.span_text (h : NormalAuthority scheme a) (more : List Char) :
    ('/' :: '/' :: (a.text ++ '/' :: more)).dropWhile (isSlash true) = a.text ++ '/' :: more ∧
      authorityOf (a.text ++ '/' :: more) = a.text ∧
      afterAuthority (a.text ++ '/' :: more) = '/' :: more := by
  have hinside : ∀ c ∈ a.text, (!endsAuthority c) = true := fun c hc => by
    rw [(h.isAuthorityChar c hc).1]
    rfl
  refine ⟨?_, ?_, ?_⟩
  · obtain ⟨first, rest, hfirst⟩ := List.exists_cons_of_ne_nil h.text_ne_nil
    have hnoSlash : isSlash true first = false := by
      have := (h.isAuthorityChar first (hfirst ▸ List.mem_cons_self)).1
      exact (Bool.or_eq_false_iff.mp this).1
    rw [hfirst, List.cons_append, List.dropWhile_cons_of_pos (by decide),
      List.dropWhile_cons_of_pos (by decide), List.dropWhile_cons_of_neg (by simp [hnoSlash])]
  · rw [authorityOf, List.takeWhile_append_of_pos hinside, List.takeWhile_cons_of_neg (by decide),
      List.append_nil]
  · rw [afterAuthority, List.dropWhile_append_of_pos hinside, List.dropWhile_cons_of_neg (by decide)]

/-- The text of an address in this form is read as that address. -/
theorem Normal.parse_text (h : Normal u) : parse u.text = .ok u := by
  obtain ⟨a, ha, husername, hpassword, hhost, hport⟩ := h.authority
  obtain ⟨list, hpath, hne, -⟩ := h.path
  obtain ⟨more, htail⟩ : ∃ more, u.tailText = '/' :: more := by
    rw [tailText, hpath, NormalSegments.path_text hne]
    exact ⟨_, rfl⟩
  obtain ⟨hslashes, htake, hdrop⟩ := ha.span_text more
  rw [← htail] at hslashes htake hdrop
  have hread : scheme? (cleaned u.text.toList) =
      some (u.scheme, '/' :: '/' :: (a.text ++ u.tailText)) := by
    rw [h.cleaned_text, text_eq husername hpassword hhost hport, scheme?_web h.web]
  rw [parse_of_scheme? hread h.web, hslashes, parseAuthority_special (isSpecial_of_web h.web), htake,
    hdrop, ha.readAuthority_text]
  exact congrArg Except.ok (h.url_tailText husername hpassword hhost hport)

end Url

end PullCache
