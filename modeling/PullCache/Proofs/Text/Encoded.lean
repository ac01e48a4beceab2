import PullCache.Proofs.Text.Split
import PullCache.Text.FormQuery
/-!
# Proofs.Text.Encoded

What is encoded can be decoded again: characters as bytes, texts with percent escapes if the percent
sign itself is escaped, and the pairs of a query string. No decoding looks past the end of a piece, so
pieces that stand after each other are decoded one by one.
-/

namespace PullCache

variable {cs : List Char} {c : Char}

/-! ## Characters -/

namespace Utf8

variable {n : Nat}

theorem toNat_byte (h : n < 256) : (UInt8.ofNat n).toNat = n :=
  UInt8.toNat_ofNat_of_lt' h

theorem leadShape_two : ∀ a < 32, 2 ≤ a → leadShape (UInt8.ofNat (0xC0 + a)) = some (1, 0x80, 0xBF) := by
  decide

/-- The second of three bytes is in the range that the first asks for, unless the character were a
surrogate. -/
theorem leadShape_three (h : 0x800 ≤ n) (h' : n < 0x10000) (hvalid : n < 0xD800 ∨ 0xDFFF < n) :
    ∃ lo hi, leadShape (UInt8.ofNat (0xE0 + n / 0x1000)) = some (2, lo, hi) ∧
      lo ≤ 0x80 + n / 0x40 % 0x40 ∧ 0x80 + n / 0x40 % 0x40 ≤ hi := by
  have hrest : ∀ a < 16, 0 < a ∧ a ≠ 13 →
      leadShape (UInt8.ofNat (0xE0 + a)) = some (2, 0x80, 0xBF) := by decide
  by_cases hfirst : n / 0x1000 = 0
  · exact ⟨0xA0, 0xBF, by rw [hfirst]; rfl, by omega, by omega⟩
  · by_cases hsurrogates : n / 0x1000 = 13
    · exact ⟨0x80, 0x9F, by rw [hsurrogates]; rfl, by omega, by omega⟩
    · exact ⟨0x80, 0xBF, hrest _ (by omega) (by omega), by omega, by omega⟩

/-- The second of four bytes is in the range that the first asks for. -/
theorem leadShape_four (h : 0x10000 ≤ n) (h' : n < 0x110000) :
    ∃ lo hi, leadShape (UInt8.ofNat (0xF0 + n / 0x40000)) = some (3, lo, hi) ∧
      lo ≤ 0x80 + n / 0x1000 % 0x40 ∧ 0x80 + n / 0x1000 % 0x40 ≤ hi := by
  have hrest : ∀ a < 4, 0 < a → leadShape (UInt8.ofNat (0xF0 + a)) = some (3, 0x80, 0xBF) := by decide
  by_cases hfirst : n / 0x40000 = 0
  · exact ⟨0x90, 0xBF, by rw [hfirst]; rfl, by omega, by omega⟩
  · by_cases hlast : n / 0x40000 = 4
    · exact ⟨0x80, 0x8F, by rw [hlast]; rfl, by omega, by omega⟩
    · exact ⟨0x80, 0xBF, hrest _ (by omega) (by omega), by omega, by omega⟩

/-- A character of several bytes is continued after its first two. -/
theorem decodeChar_byte {b : UInt8} {m k lo hi : Nat} {tail : Bytes} (hb : 0x80 ≤ b.toNat)
    (hlead : leadShape b = some (k + 1, lo, hi)) (hm : m < 0x40) (hlo : lo ≤ 0x80 + m)
    (hhi : 0x80 + m ≤ hi) {bits : Nat} (hbits : leadBits b (k + 1) = bits) :
    decodeChar b (UInt8.ofNat (0x80 + m) :: tail) = continueChar k (bits * 0x40 + m) tail := by
  have hbyte : (UInt8.ofNat (0x80 + m)).toNat = 0x80 + m := toNat_byte (by omega)
  unfold decodeChar
  rw [if_neg (Nat.not_lt.mpr hb), hlead, ← hbits]
  dsimp only
  rw [hbyte, if_pos (by simp [hlo, hhi]), Nat.add_sub_cancel_left]

/-- Each further byte brings six bits. -/
theorem continueChar_byte {m : Nat} (hm : m < 0x40) (k bits : Nat) (rest : Bytes) :
    continueChar (k + 1) bits (UInt8.ofNat (0x80 + m) :: rest) =
      continueChar k (bits * 0x40 + m) rest := by
  have hbyte : (UInt8.ofNat (0x80 + m)).toNat = 0x80 + m := toNat_byte (by omega)
  have hcontinues : isContinuation (UInt8.ofNat (0x80 + m)) = true := by
    simp only [isContinuation, hbyte, Bool.and_eq_true, decide_eq_true_eq]
    omega
  rw [continueChar, if_pos hcontinues, hbyte, Nat.add_sub_cancel_left]

/-- The bytes of a character are read as that character, whatever comes after them. -/
theorem decodeChar_encodeChar (c : Char) (rest : Bytes) :
    ∃ b more, encodeChar c = b :: more ∧ decodeChar b (more ++ rest) = (some c, rest) := by
  have hvalid : c.toNat < 0xD800 ∨ 0xDFFF < c.toNat ∧ c.toNat < 0x110000 := c.valid
  have hchar : ∀ {n}, n = c.toNat → (some (Char.ofNat n), rest) = (some c, rest) := by
    rintro _ rfl
    rw [Char.ofNat_toNat]
  unfold encodeChar
  generalize c.toNat = n at hvalid hchar
  dsimp only
  split
  · next hone =>
    have hbyte := toNat_byte (n := n) (by omega)
    refine ⟨_, _, rfl, ?_⟩
    unfold decodeChar
    rw [List.nil_append, hbyte, if_pos hone]
    exact hchar rfl
  · split
    · next hone htwo =>
      have hbyte := toNat_byte (n := 0xC0 + n / 0x40) (by omega)
      have hlead := leadShape_two (n / 0x40) (by omega) (by omega)
      have hbits : leadBits (UInt8.ofNat (0xC0 + n / 0x40)) 1 = n / 0x40 :=
        (congrArg (· - 0xC0) hbyte).trans (Nat.add_sub_cancel_left ..)
      refine ⟨_, _, rfl, ?_⟩
      rw [List.singleton_append, decodeChar_byte (by rw [hbyte]; omega) hlead (by omega) (by omega)
        (by omega) hbits, continueChar]
      exact hchar (by omega)
    · split
      · next hone htwo hthree =>
        have hbyte := toNat_byte (n := 0xE0 + n / 0x1000) (by omega)
        obtain ⟨lo, hi, hlead, hlo, hhi⟩ := leadShape_three (n := n) (by omega) hthree (by omega)
        have hbits : leadBits (UInt8.ofNat (0xE0 + n / 0x1000)) 2 = n / 0x1000 :=
          (congrArg (· - 0xE0) hbyte).trans (Nat.add_sub_cancel_left ..)
        refine ⟨_, _, rfl, ?_⟩
        rw [List.cons_append, decodeChar_byte (by rw [hbyte]; omega) hlead (by omega) hlo hhi hbits,
          List.singleton_append, continueChar_byte (by omega), continueChar]
        exact hchar (by omega)
      · next hone htwo hthree =>
        have hbyte := toNat_byte (n := 0xF0 + n / 0x40000) (by omega)
        obtain ⟨lo, hi, hlead, hlo, hhi⟩ := leadShape_four (n := n) (by omega) (by omega)
        have hbits : leadBits (UInt8.ofNat (0xF0 + n / 0x40000)) 3 = n / 0x40000 :=
          (congrArg (· - 0xF0) hbyte).trans (Nat.add_sub_cancel_left ..)
        refine ⟨_, _, rfl, ?_⟩
        rw [List.cons_append, decodeChar_byte (by rw [hbyte]; omega) hlead (by omega) hlo hhi hbits,
          List.cons_append, continueChar_byte (by omega), List.singleton_append,
          continueChar_byte (by omega), continueChar]
        exact hchar (by omega)

/-- A text is read from its bytes. -/
theorem decodeUnits_encode (cs : List Char) : decodeUnits (encode cs) = cs.map some := by
  induction cs with
  | nil => simp [decodeUnits]
  | cons c rest ih =>
    obtain ⟨b, more, hbytes, hchar⟩ := decodeChar_encodeChar c (encode rest)
    rw [encode_cons, hbytes, List.cons_append, decodeUnits, hchar, ih]
    rfl

/-- Text is decoded as it was encoded. -/
theorem decode?_encode (cs : List Char) : decode? (encode cs) = some cs := by
  rw [decode?, decodeUnits_encode]
  induction cs with
  | nil => rfl
  | cons c rest ih => simp [ih]

/-- Nothing is lost of text that was encoded. -/
theorem decodeLossy_encode (cs : List Char) : decodeLossy (encode cs) = cs := by
  rw [decodeLossy, decodeUnits_encode, List.map_map]
  exact List.map_id cs

end Utf8

/-! ## Escapes -/

namespace Utf8

theorem encodeChar_ascii (h : c.toNat < 0x80) : encodeChar c = [UInt8.ofNat c.toNat] := by
  unfold encodeChar
  exact if_pos h

/-- The bytes of a character outside ASCII are outside ASCII as well. -/
theorem toNat_of_mem_encodeChar (h : ¬ c.toNat < 0x80) {b : UInt8} (hb : b ∈ encodeChar c) :
    0x80 ≤ b.toNat := by
  have hvalid : c.toNat < 0xD800 ∨ 0xDFFF < c.toNat ∧ c.toNat < 0x110000 := c.valid
  unfold encodeChar at hb
  generalize c.toNat = n at h hvalid hb
  have hbyte : ∀ m, 0x80 ≤ m → m < 0x100 → b = UInt8.ofNat m → 0x80 ≤ b.toNat := by
    rintro m hlo hhi rfl
    rwa [toNat_byte hhi]
  dsimp only at hb
  rw [if_neg h] at hb
  split at hb
  · simp only [List.mem_cons, List.not_mem_nil, or_false] at hb
    obtain hb | hb := hb <;> exact hbyte _ (by omega) (by omega) hb
  · split at hb
    · simp only [List.mem_cons, List.not_mem_nil, or_false] at hb
      obtain hb | hb | hb := hb <;> exact hbyte _ (by omega) (by omega) hb
    · simp only [List.mem_cons, List.not_mem_nil, or_false] at hb
      obtain hb | hb | hb | hb := hb <;> exact hbyte _ (by omega) (by omega) hb

/-- An ASCII byte is found only where its character stands. -/
theorem ne_of_mem_encodeChar {d : Char} (hd : d.toNat < 0x80) (hne : c ≠ d) {b : UInt8}
    (hb : b ∈ encodeChar c) : b ≠ UInt8.ofNat d.toNat := by
  intro heq
  have hbyte : b.toNat = d.toNat := heq ▸ toNat_byte (by omega)
  by_cases hc : c.toNat < 0x80
  · rw [encodeChar_ascii hc, List.mem_singleton] at hb
    rw [hb, toNat_byte (by omega)] at hbyte
    exact hne (Char.toNat_inj.mp hbyte)
  · have := toNat_of_mem_encodeChar hc hb
    omega

end Utf8

namespace Percent

variable {b : UInt8} {inSet : Char → Bool}

/-- Bytes other than the percent sign stand for themselves. -/
theorem decode_cons_of_ne (h : b ≠ 0x25) (rest : Bytes) : decode (b :: rest) = b :: decode rest := by
  rw [decode]
  rintro _ _ _ rfl
  exact absurd rfl h

/-- And so do any number of them. -/
theorem decode_append_of_ne {bs : Bytes} (h : ∀ b ∈ bs, b ≠ 0x25) (rest : Bytes) :
    decode (bs ++ rest) = bs ++ decode rest := by
  induction bs with
  | nil => rfl
  | cons b bs ih =>
    rw [List.cons_append, decode_cons_of_ne (h b List.mem_cons_self),
      ih fun d hd => h d (List.mem_cons_of_mem b hd), List.cons_append]

theorem toNat_hexDigit_lt : ∀ n < 16, (hexDigit n).toNat < 0x80 := by
  decide

theorem hexValue?_hexDigit : ∀ n < 16, hexValue? (UInt8.ofNat (hexDigit n).toNat) = some n := by
  decide

/-- An escape has three bytes. -/
theorem utf8_encodeByte (b : UInt8) : Utf8.encode (encodeByte b) =
    [0x25, UInt8.ofNat (hexDigit (b.toNat / 16)).toNat,
      UInt8.ofNat (hexDigit (b.toNat % 16)).toNat] := by
  have hb := b.toNat_lt
  simp only [encodeByte, Utf8.encode_cons, Utf8.encode_nil, List.append_nil]
  rw [Utf8.encodeChar_ascii (toNat_hexDigit_lt _ (by omega)),
    Utf8.encodeChar_ascii (toNat_hexDigit_lt _ (by omega))]
  rfl

/-- An escape is read as its byte. -/
theorem decode_encodeByte (b : UInt8) (rest : Bytes) :
    decode (Utf8.encode (encodeByte b) ++ rest) = b :: decode rest := by
  have hb := b.toNat_lt
  have hvalue : b.toNat / 16 * 16 + b.toNat % 16 = b.toNat := by omega
  rw [utf8_encodeByte]
  simp only [List.cons_append, List.nil_append, decode,
    hexValue?_hexDigit _ (by omega : b.toNat / 16 < 16),
    hexValue?_hexDigit _ (by omega : b.toNat % 16 < 16), hvalue, UInt8.ofNat_toNat]

/-- Escapes are decoded, whatever follows them. -/
theorem decode_encodeBytes (bs rest : Bytes) :
    decode (Utf8.encode (bs.flatMap encodeByte) ++ rest) = bs ++ decode rest := by
  induction bs with
  | nil => rfl
  | cons b bs ih =>
    rw [List.flatMap_cons, Utf8.encode_append, List.append_assoc, decode_encodeByte, ih,
      List.cons_append]

/-- A text that was encoded with its percent signs is what decoding gives. -/
theorem decode_encode (hpercent : inSet '%' = true) (cs : List Char) :
    decode (Utf8.encode (encode inSet cs)) = Utf8.encode cs := by
  induction cs with
  | nil => rfl
  | cons c cs ih =>
    rw [encode, List.flatMap_cons, ← encode, Utf8.encode_append, Utf8.encode_cons]
    split
    · rw [decode_encodeBytes, ih]
    · next hplain =>
      have hc : c ≠ '%' := by
        rintro rfl
        exact hplain hpercent
      rw [Utf8.encode_cons, Utf8.encode_nil, List.append_nil,
        decode_append_of_ne (fun b hb => Utf8.ne_of_mem_encodeChar (by decide) hc hb), ih]

end Percent

/-! ## Query strings -/

namespace FormQuery

/-- The separator of pairs is in no escape, so decoding can be cut there. -/
theorem decode_append_cons (xs ys : Bytes) : decode (xs ++ 0x26 :: ys) = decode xs ++ decode ys := by
  rw [decode, Text.splitOn_append_cons xs ys (by decide), List.filter_append, List.map_append]
  rfl

/-- A character of an encoded name or value. -/
def IsEncoded (c : Char) : Prop :=
  c = '+' ∨ c = '%' ∨ isPlain c = true

/-- Encoded text has none of the characters that mean something in a query. -/
theorem isEncoded_of_mem (h : c ∈ encodeText cs) : IsEncoded c := by
  have hhex : ∀ n < 16, isPlain (Percent.hexDigit n) = true := by decide
  obtain ⟨d, -, hd⟩ := List.mem_flatMap.mp h
  split at hd
  · exact .inl (List.mem_singleton.mp hd)
  · split at hd
    · next hplain =>
      rw [List.mem_singleton.mp hd]
      exact .inr (.inr hplain)
    · obtain ⟨b, -, hb⟩ := List.mem_flatMap.mp hd
      have := b.toNat_lt
      simp only [Percent.encodeByte, List.mem_cons, List.not_mem_nil, or_false] at hb
      obtain rfl | rfl | rfl := hb
      · exact .inr (.inl rfl)
      · exact .inr (.inr (hhex _ (by omega)))
      · exact .inr (.inr (hhex _ (by omega)))

/-- No byte of an encoded name or value is one of those that separate them. -/
theorem ne_of_mem_encodeText {b : UInt8} (h : b ∈ Utf8.encode (encodeText cs)) :
    b ≠ 0x26 ∧ b ≠ 0x3D := by
  obtain ⟨c, hc, hb⟩ := List.mem_flatMap.mp h
  have hencoded := isEncoded_of_mem hc
  constructor
  · refine Utf8.ne_of_mem_encodeChar (d := '&') (by decide) ?_ hb
    rintro rfl
    exact absurd hencoded (by unfold IsEncoded; decide)
  · refine Utf8.ne_of_mem_encodeChar (d := '=') (by decide) ?_ hb
    rintro rfl
    exact absurd hencoded (by unfold IsEncoded; decide)

/-- Only a plus sign is read as a space. -/
def spaced (b : UInt8) : UInt8 :=
  if b = 0x2B then 0x20 else b

/-- Without a plus sign nothing becomes a space. -/
theorem map_spaced {bs : Bytes} (h : ∀ b ∈ bs, b ≠ 0x2B) : bs.map spaced = bs := by
  refine (List.map_congr_left fun b hb => ?_).trans (List.map_id bs)
  exact if_neg (h b hb)

/-- No escape contains a plus sign. -/
theorem ne_plus_of_mem_escapes {bs : Bytes} {b : UInt8}
    (h : b ∈ Utf8.encode (bs.flatMap Percent.encodeByte)) : b ≠ 0x2B := by
  have hhex : ∀ n < 16, UInt8.ofNat (Percent.hexDigit n).toNat ≠ 0x2B := by decide
  induction bs with
  | nil => contradiction
  | cons d bs ih =>
    have := d.toNat_lt
    rw [List.flatMap_cons, Utf8.encode_append, List.mem_append, Percent.utf8_encodeByte] at h
    obtain h | h := h
    · simp only [List.mem_cons, List.not_mem_nil, or_false] at h
      obtain rfl | rfl | rfl := h
      · decide
      · exact hhex _ (by omega)
      · exact hhex _ (by omega)
    · exact ih h

/-- Encoded text is decoded to the bytes that it was made from. -/
theorem decode_spaced_encodeText (cs : List Char) :
    Percent.decode ((Utf8.encode (encodeText cs)).map spaced) = Utf8.encode cs := by
  induction cs with
  | nil => rfl
  | cons c cs ih =>
    rw [encodeText, List.flatMap_cons, ← encodeText, Utf8.encode_append, Utf8.encode_cons,
      List.map_append]
    split
    · next hspace =>
      rw [beq_iff_eq.mp hspace]
      change Percent.decode (0x20 :: (Utf8.encode (encodeText cs)).map spaced) = _
      rw [Percent.decode_cons_of_ne (by decide), ih]
      rfl
    · split
      · next hspace hplain =>
        have hne : ∀ d : Char, isPlain d = false → c ≠ d := by
          rintro _ hd rfl
          exact absurd (hplain.symm.trans hd) nofun
        rw [Utf8.encode_cons, Utf8.encode_nil, List.append_nil,
          map_spaced fun b hb => Utf8.ne_of_mem_encodeChar (by decide) (hne '+' (by decide)) hb,
          Percent.decode_append_of_ne
            (fun b hb => Utf8.ne_of_mem_encodeChar (by decide) (hne '%' (by decide)) hb), ih]
      · rw [map_spaced fun b hb => ne_plus_of_mem_escapes hb, Percent.decode_encodeBytes, ih]

/-- Encoded text is decoded to the text that it was made from. -/
theorem decodeText_encodeText (cs : List Char) :
    decodeText (Utf8.encode (encodeText cs)) = String.ofList cs := by
  rw [decodeText, utf8Lossy]
  change String.ofList (Utf8.decodeLossy (Percent.decode (List.map spaced _))) = _
  rw [decode_spaced_encodeText, Utf8.decodeLossy_encode]

/-- A pair is written as its name, an equals sign and its value. -/
theorem utf8_encodePair (p : String × String) : Utf8.encode (encodePair p) =
    Utf8.encode (encodeText p.1.toList) ++ 0x3D :: Utf8.encode (encodeText p.2.toList) := by
  rw [encodePair, Utf8.encode_append, Utf8.encode_cons]
  rfl

/-- A pair is read back as it was written. -/
theorem decodePair_encodePair (p : String × String) :
    decodePair (Utf8.encode (encodePair p)) = p := by
  have hname : ∀ b ∈ Utf8.encode (encodeText p.1.toList), decide (b ≠ 0x3D) = true := fun b hb =>
    decide_eq_true (ne_of_mem_encodeText hb).2
  rw [utf8_encodePair, decodePair, List.takeWhile_append_of_pos hname,
    List.dropWhile_append_of_pos hname]
  simp [decodeText_encodeText]

/-- The text of a pair is read as that pair. -/
theorem decode_encodePair (p : String × String) : decode (Utf8.encode (encodePair p)) = [p] := by
  have hwhole : Text.splitOn (· == 0x26) (Utf8.encode (encodePair p)) =
      [Utf8.encode (encodePair p)] := by
    refine Text.splitOn_eq_singleton fun b hb => ?_
    rw [beq_eq_false_iff_ne]
    rw [utf8_encodePair, List.mem_append, List.mem_cons] at hb
    obtain hb | rfl | hb := hb
    · exact (ne_of_mem_encodeText hb).1
    · decide
    · exact (ne_of_mem_encodeText hb).1
  have hnonempty : (Utf8.encode (encodePair p)).isEmpty = false := by
    rw [utf8_encodePair]
    simp
  rw [decode, hwhole]
  simp [hnonempty, decodePair_encodePair]

/-- Pairs that are added to a query string are read after its own. -/
theorem decode_append (query : List Char) (pairs : List (String × String)) :
    decode (Utf8.encode (append query pairs)) = decode (Utf8.encode query) ++ pairs := by
  induction pairs generalizing query with
  | nil => exact (List.append_nil _).symm
  | cons p pairs ih =>
    rw [append, List.foldl_cons, ← append, ih]
    cases query with
    | nil =>
      change decode (Utf8.encode (encodePair p)) ++ pairs = _
      rw [decode_encodePair]
      rfl
    | cons c query =>
      simp only [List.isEmpty_cons, Bool.false_eq_true, if_false, List.append_assoc,
        List.singleton_append]
      rw [Utf8.encode_append, Utf8.encode_cons]
      change decode (Utf8.encode (c :: query) ++ 0x26 :: Utf8.encode (encodePair p)) ++ pairs = _
      rw [decode_append_cons, decode_encodePair, List.append_assoc]
      rfl

end FormQuery

end PullCache
