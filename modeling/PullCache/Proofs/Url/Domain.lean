import PullCache.Proofs.Lists
import PullCache.Proofs.Text.Split
import PullCache.Url.Domain
/-!
# Proofs.Url.Domain

No name ends in a space or a control character (`toAscii?_concat_blank`). Such a character is kept by
every step on the way to a name: it is no part of an escape and of no character of several bytes, it
stands for itself, no mark moves past it and nothing is composed with it. So it is in the name in the
end, where it is forbidden.
-/

namespace PullCache

open Text

variable {b : UInt8} {c : Char} {cs : List Char}

/-! ## Bytes -/

namespace Percent

/-- A byte that has no part in escapes comes out at the end as it went in. -/
theorem decode_concat (hhex : hexValue? b = none) (hpercent : b ≠ 0x25) (bs : Bytes) :
    decode (bs ++ [b]) = decode bs ++ [b] := by
  fun_induction decode bs with
  | case1 h l rest hi lo hlo hhi ih =>
    simp only [List.cons_append, decode, hhi, hlo, ih]
  | case2 h l rest hnone ih =>
    simp only [List.cons_append] at ih ⊢
    rw [decode, ih]
    split
    · next hhi hlo => exact (hnone _ _ hhi hlo).elim
    · rfl
  | case3 d rest hshort ih =>
    rw [List.cons_append, List.cons_append, ← ih]
    by_cases hd : d = 0x25
    · subst hd
      match rest with
      | [] => rfl
      | [h] => simp [decode, hhex]
      | h :: l :: rest => exact (hshort h l rest rfl rfl).elim
    · rw [decode]
      rintro _ _ _ rfl
      exact absurd rfl hd
  | case4 => simp [decode]

end Percent

namespace Utf8

/-- A byte in ASCII continues no character. -/
theorem continueChar_concat (hascii : b.toNat < 0x80) (k bits : Nat) (rest : Bytes) :
    continueChar k bits (rest ++ [b]) =
      ((continueChar k bits rest).1, (continueChar k bits rest).2 ++ [b]) := by
  have hends : isContinuation b = false := by
    simp [isContinuation]
    omega
  induction k generalizing bits rest with
  | zero => rfl
  | succ k ih =>
    cases rest with
    | nil => simp [continueChar, hends]
    | cons d rest =>
      rw [List.cons_append, continueChar, continueChar]
      split
      · exact ih _ rest
      · rfl

/-- The second byte of a character is none of ASCII. -/
theorem leadShape_lo {lead : UInt8} {k lo hi : Nat} (h : leadShape lead = some (k, lo, hi)) :
    0x80 ≤ lo := by
  unfold leadShape at h
  grind

/-- A character of several bytes takes no ASCII byte. -/
theorem decodeChar_concat (hascii : b.toNat < 0x80) (lead : UInt8) (rest : Bytes) :
    decodeChar lead (rest ++ [b]) = ((decodeChar lead rest).1, (decodeChar lead rest).2 ++ [b]) := by
  unfold decodeChar
  split
  · rfl
  · cases hshape : leadShape lead with
    | none => simp
    | some shape =>
      obtain ⟨k, lo, hi⟩ := shape
      have hlo := leadShape_lo hshape
      have houtside : ¬ (lo ≤ b.toNat) := by omega
      cases k with
      | zero => simp
      | succ k =>
        cases rest with
        | nil => simp [houtside]
        | cons d tail =>
          simp only [List.cons_append]
          split
          · exact continueChar_concat hascii k _ tail
          · rfl

/-- A byte in ASCII at the end is a character of its own. -/
theorem decodeUnits_concat (hascii : b.toNat < 0x80) (bs : Bytes) :
    decodeUnits (bs ++ [b]) = decodeUnits bs ++ [some (Char.ofNat b.toNat)] := by
  fun_induction decodeUnits bs with
  | case1 => simp [decodeUnits, decodeChar, hascii]
  | case2 lead rest ih =>
    rw [List.cons_append, decodeUnits, decodeChar_concat hascii, ih]
    rfl

end Utf8

/-! ## Letters -/

namespace Text

theorem markClass_of_blank (hc : c.toNat ≤ 0x20) : markClass c = 0 :=
  if_pos (by omega)

theorem partsOf_of_blank (hc : c.toNat ≤ 0x20) : partsOf c = [c] :=
  if_pos (by omega)

/-- No mark moves past a blank. -/
theorem insertMark_concat (hc : c.toNat ≤ 0x20) (mark : Char) (cs : List Char) :
    insertMark mark (cs ++ [c]) = insertMark mark cs ++ [c] := by
  induction cs with
  | nil => simp [insertMark, markClass_of_blank hc]
  | cons d rest ih =>
    rw [List.cons_append, insertMark, insertMark]
    split
    · rw [ih, List.cons_append]
    · rfl

/-- Marks are ordered before a blank. -/
theorem orderMarks_concat (hc : c.toNat ≤ 0x20) (cs : List Char) :
    orderMarks (cs ++ [c]) = orderMarks cs ++ [c] := by
  induction cs with
  | nil => simp [orderMarks, markClass_of_blank hc]
  | cons d rest ih =>
    rw [List.cons_append, orderMarks, orderMarks, ih]
    split
    · rfl
    · exact insertMark_concat hc d _

theorem composite?_of_blank (hc : c.toNat ≤ 0x20) (letter : Char) : composite? letter c = none :=
  if_pos (by omega)

/-- A blank at the end stays there through a composition. -/
theorem composeFrom_concat (hc : c.toNat ≤ 0x20) (letter : Char) (kept cs : List Char) :
    composeFrom letter kept (cs ++ [c]) = composeFrom letter kept cs ++ [c] := by
  induction cs generalizing letter kept with
  | nil => simp [composeFrom, composite?_of_blank hc, markClass_of_blank hc]
  | cons d rest ih =>
    simp only [List.cons_append, composeFrom]
    split
    · exact ih _ kept
    · split
      · simp [ih]
      · exact ih letter _

/-- A blank at the end stays there. -/
theorem compose_concat (hc : c.toNat ≤ 0x20) (cs : List Char) :
    compose (cs ++ [c]) = compose cs ++ [c] := by
  induction cs with
  | nil => simp [compose, composeFrom, markClass_of_blank hc]
  | cons d rest ih =>
    rw [List.cons_append, compose, compose, ih]
    split
    · exact composeFrom_concat hc d [] rest
    · rfl

/-- Nothing is taken apart, moved past the end or composed there. -/
theorem canonical_concat (hc : c.toNat ≤ 0x20) (cs : List Char) :
    canonical (cs ++ [c]) = canonical cs ++ [c] := by
  have hplain : decide (c.toNat < 0x300) = true := by
    rw [decide_eq_true_eq]
    omega
  have hparts : decompose (cs ++ [c]) = decompose cs ++ [c] := by
    simp [decompose, partsOf_of_blank hc]
  rw [canonical, canonical, List.all_append, hparts, orderMarks_concat hc, compose_concat hc]
  simp only [List.all_cons, hplain, List.all_nil, Bool.and_true]
  split <;> rfl

end Text

/-! ## Spaces and control characters -/

namespace Text

theorem blank_ne {d : Char} (hc : c.toNat ≤ 0x20) (hd : 0x20 < d.toNat) : c ≠ d := by
  rintro rfl
  omega

/-- What holds for the first numbers holds for spaces and control characters. -/
theorem forall_blank {P : Char → Prop} (h : ∀ n < 0x21, P (Char.ofNat n)) (hc : c.toNat ≤ 0x20) :
    P c := by
  have := h c.toNat (by omega)
  rwa [Char.ofNat_toNat] at this

theorem lowerAscii_of_blank (hc : c.toNat ≤ 0x20) : lowerAscii c = c :=
  forall_blank (P := fun c => lowerAscii c = c) (by decide) hc

/-- What is no separator is in one of the pieces. -/
theorem mem_splitOn {isSep : Char → Bool} (hsep : isSep c = false) (h : c ∈ cs) :
    ∃ piece ∈ splitOn isSep cs, c ∈ piece := by
  induction cs with
  | nil => contradiction
  | cons d rest ih =>
    rw [splitOn]
    obtain rfl | hrest := List.mem_cons.mp h
    · rw [hsep, if_neg Bool.false_ne_true]
      split <;> simp
    · obtain ⟨piece, hpiece, hmem⟩ := ih hrest
      split
      · exact ⟨piece, List.mem_cons_of_mem _ hpiece, hmem⟩
      · cases hs : splitOn isSep rest with
        | nil => exact absurd hs (splitOn_ne_nil rest)
        | cons first pieces =>
          rw [hs] at hpiece
          obtain rfl | hlater := List.mem_cons.mp hpiece
          · exact ⟨_, List.mem_cons_self, List.mem_cons_of_mem _ hmem⟩
          · exact ⟨piece, List.mem_cons_of_mem _ hlater, hmem⟩

/-- What is in a piece is in the whole. -/
theorem mem_intercalate {sep piece : List Char} {pieces : List (List Char)} (hpiece : piece ∈ pieces)
    (h : c ∈ piece) : c ∈ sep.intercalate pieces := by
  induction pieces with
  | nil => contradiction
  | cons first rest ih =>
    cases rest with
    | nil =>
      obtain rfl := List.mem_singleton.mp hpiece
      rwa [List.intercalate_singleton]
    | cons second more =>
      rw [List.intercalate_cons_cons]
      obtain rfl | hlater := List.mem_cons.mp hpiece
      · simp [h]
      · exact List.mem_append_right _ (ih hlater)

end Text

/-! ## Labels -/

namespace Punycode

theorem mem_encode (hascii : c.toNat < 0x80) (h : c ∈ cs) : c ∈ encode cs := by
  simp [encode, h, hascii]

/-- What is no digit is not passed over. -/
theorem mem_of_readNumber? (hdigit : digitValue? c = none) {bias place weight n m : Nat}
    {rest : List Char} (h : readNumber? bias place weight n cs = some (m, rest)) (hc : c ∈ cs) :
    c ∈ rest := by
  induction cs generalizing place weight n with
  | nil => contradiction
  | cons d cs ih =>
    rw [readNumber?] at h
    obtain ⟨value, hvalue, h⟩ := Option.bind_eq_some_iff.mp h
    have hne : c ≠ d := by
      rintro rfl
      rw [hdigit] at hvalue
      contradiction
    have hcs := (List.mem_cons.mp hc).resolve_left hne
    dsimp only at h
    split at h
    · obtain ⟨rfl, rfl⟩ := Prod.mk.inj (Option.some.inj h)
      exact hcs
    · exact ih h hcs

/-- A character that is no digit makes the encoded part of a label illegal. -/
theorem insertAll?_eq_none (hdigit : digitValue? c = none) (n index bias : Nat) (text : List Char)
    (hc : c ∈ cs) : insertAll? n index bias text cs = none := by
  fun_induction insertAll? n index bias text cs with
  | case1 => simp_all
  | case2 => rfl
  | case3 => rfl
  | case4 n index bias text cs hne delta rest hread count number place hrange ih =>
    exact ih (mem_of_readNumber? hdigit hread hc)

/-- Characters are put in between those that are there. -/
theorem mem_of_insertAll? {n index bias : Nat} {text found : List Char}
    (h : insertAll? n index bias text cs = some found) (hc : c ∈ text) : c ∈ found := by
  fun_induction insertAll? n index bias text cs with
  | case1 => simp_all
  | case2 => contradiction
  | case3 => contradiction
  | case4 n index bias text cs hne delta rest hread count number place hrange ih =>
    refine ih h ?_
    rw [← List.take_append_drop place text, List.mem_append] at hc
    exact List.mem_append.mpr (hc.imp_right (List.mem_cons_of_mem _))

/-- What is no digit is among the characters that an ASCII form starts with. -/
theorem mem_of_decode? (hdigit : digitValue? c = none) (hhyphen : c ≠ '-') {found : List Char}
    (h : decode? cs = some found) (hc : c ∈ cs) : c ∈ found := by
  rw [decode?] at h
  have hsplit := (spanEnd_append (· != '-') cs).symm
  have hfirst := List.head?_dropWhile_not (· != '-') cs.reverse
  generalize (cs.reverse.takeWhile (· != '-')).reverse = extension at h hsplit
  have hextension : c ∉ extension := by
    intro hmem
    rw [insertAll?_eq_none hdigit _ _ _ _ hmem] at h
    contradiction
  cases hfront : cs.reverse.dropWhile (· != '-') with
  | nil =>
    rw [hfront] at hsplit
    exact absurd (hsplit ▸ hc) (by simpa using hextension)
  | cons hyphen rest =>
    obtain rfl : hyphen = '-' := by simpa [hfront] using hfirst
    rw [hfront, List.reverse_cons, List.append_assoc] at hsplit
    have hbasic : c ∈ rest.reverse := by
      rw [hsplit] at hc
      simpa [hhyphen, hextension] using hc
    have hlength : cs.length - extension.length - 1 = rest.reverse.length := by
      rw [hsplit]
      simp
      omega
    rw [hlength, hsplit, List.take_left] at h
    exact mem_of_insertAll? h hbasic

end Punycode

namespace Domain

theorem digitValue?_of_blank (hc : c.toNat ≤ 0x20) : Punycode.digitValue? c = none :=
  forall_blank (P := fun c => Punycode.digitValue? c = none) (by decide) hc

/-- A blank is mapped to itself. -/
theorem letters?_of_blank (hc : c.toNat ≤ 0x20) : letters? c = some [c] := by
  rw [letters?, if_pos (by omega), lowerAscii_of_blank hc]

/-- A blank at the end passes the mapping. -/
theorem plain?_concat (hc : c.toNat ≤ 0x20) (cs : List Char) :
    plain? (cs ++ [c]) = (plain? cs).map (· ++ [c]) := by
  rw [plain?, plain?, List.mapM_append]
  cases cs.mapM letters? with
  | none => rfl
  | some letters => simp [letters?_of_blank hc]

/-- A blank stays when a label gets its encoded form. -/
theorem mem_of_ofForm? (hc : c.toNat ≤ 0x20) {label : List Char} (h : ofForm? cs = some label)
    (hmem : c ∈ cs) : c ∈ label := by
  rw [ofForm?] at h
  split at h
  · contradiction
  · obtain ⟨found, hfound, h⟩ := Option.bind_eq_some_iff.mp h
    obtain rfl : found = label := by
      dsimp only at h
      split at h
      · contradiction
      · exact Option.some.inj h
    exact Punycode.mem_of_decode? (digitValue?_of_blank hc) (blank_ne hc (by decide)) hfound hmem

/-- A label keeps its spaces and control characters, also if it is given in its ASCII form. -/
theorem mem_of_label? (hc : c.toNat ≤ 0x20) {label : List Char} (h : label? cs = some label)
    (hmem : c ∈ cs) : c ∈ label := by
  have hfit : ∀ {found}, (if isFit found then some found else none) = some label → found = label := by
    intro found h
    split at h
    · exact Option.some.inj h
    · contradiction
  unfold label? at h
  split at h
  · next form =>
    obtain ⟨found, hfound, h⟩ := Option.bind_eq_some_iff.mp h
    have hx : c ≠ 'x' := blank_ne hc (by decide)
    have hn : c ≠ 'n' := blank_ne hc (by decide)
    have hhyphen : c ≠ '-' := blank_ne hc (by decide)
    exact hfit h ▸ mem_of_ofForm? hc hfound (by simpa [hx, hn, hhyphen] using hmem)
  · exact hfit h ▸ hmem

/-- A blank stays when a label gets its normal form. -/
theorem mem_of_form? (hc : c.toNat ≤ 0x20) {label form : List Char} (h : form? label = some form)
    (hmem : c ∈ label) : c ∈ form := by
  rw [form?] at h
  split at h
  · cases h
    exact hmem
  · split at h
    · contradiction
    · cases h
      exact List.mem_append_right _ (Punycode.mem_encode (by omega) hmem)

/-- What a text is decoded to ends in the same space or control character. -/
theorem decode?_concat (hc : c.toNat ≤ 0x20) {text : List Char}
    (h : Utf8.decode? (Percent.decode (Utf8.encode (cs ++ [c]))) = some text) :
    ∃ front, text = front ++ [c] := by
  have hbyte : (UInt8.ofNat c.toNat).toNat = c.toNat := Nat.mod_eq_of_lt (by omega)
  have hencode : Utf8.encode [c] = [UInt8.ofNat c.toNat] := by
    rw [Utf8.encode_cons, Utf8.encode_nil, List.append_nil, Utf8.encodeChar]
    exact if_pos (by omega)
  have hhex : Percent.hexValue? (UInt8.ofNat c.toNat) = none := by
    rw [Percent.hexValue?, hbyte, Char.ofNat_toNat]
    exact forall_blank (P := fun c => digitValue? c = none) (by decide) hc
  have hpercent : UInt8.ofNat c.toNat ≠ 0x25 := by
    intro h
    have := congrArg UInt8.toNat h
    rw [hbyte] at this
    exact absurd this (by simp; omega)
  rw [Utf8.encode_append, hencode, Percent.decode_concat hhex hpercent, Utf8.decode?,
    Utf8.decodeUnits_concat (by omega), hbyte, Char.ofNat_toNat, List.mapM_append] at h
  obtain ⟨front, -, h⟩ := Option.bind_eq_some_iff.mp h
  exact ⟨front, (Option.some.inj h).symm⟩

/-- The forms of the labels still hold the space or control character at the end of a name. -/
theorem exists_form_of_forms? (hc : c.toNat ≤ 0x20) {forms : List (List Char)}
    (h : forms? (cs ++ [c]) = some forms) : ∃ form ∈ forms, c ∈ form := by
  rw [forms?, plain?_concat hc] at h
  obtain ⟨plain, hplain, h⟩ := Option.bind_eq_some_iff.mp h
  obtain ⟨front, -, rfl⟩ := Option.map_eq_some_iff.mp hplain
  obtain ⟨labels, hlabels, h⟩ := Option.bind_eq_some_iff.mp h
  rw [canonical_concat hc] at hlabels
  have hdot : (c == '.') = false := beq_false_of_ne (blank_ne hc (by decide))
  have hpieces : ∃ piece ∈ splitOn (· == '.') (canonical front ++ [c]), c ∈ piece :=
    mem_splitOn hdot (by simp)
  obtain ⟨piece, hpiece, hmem⟩ := hpieces
  obtain ⟨label, hlabel, hfound⟩ := exists_of_mapM hlabels hpiece
  split at h
  · obtain ⟨form, hform, hmade⟩ := exists_of_mapM h hlabel
    exact ⟨form, hform, mem_of_form? hc hmade (mem_of_label? hc hfound hmem)⟩
  · contradiction

/-- A name that ends in a space or a control character is none. -/
theorem toAscii?_concat_blank (hc : c.toNat ≤ 0x20) (cs : List Char) : toAscii? (cs ++ [c]) = none := by
  have hnone : convert? (cs ++ [c]) = none := by
    refine Option.eq_none_iff_forall_ne_some.mpr fun name h => ?_
    rw [convert?] at h
    obtain ⟨text, htext, h⟩ := Option.bind_eq_some_iff.mp h
    obtain ⟨front, rfl⟩ := decode?_concat hc htext
    obtain ⟨forms, hforms, h⟩ := Option.bind_eq_some_iff.mp h
    obtain ⟨form, hform, hmem⟩ := exists_form_of_forms? hc hforms
    have hforbidden : (['.'].intercalate forms).any isForbidden = true :=
      List.any_eq_true.mpr ⟨c, mem_intercalate hform hmem, by simp [isForbidden, hc]⟩
    simp only [hforbidden, if_true] at h
    contradiction
  rw [toAscii?, hnone, Option.filter_none]

end Domain

end PullCache
