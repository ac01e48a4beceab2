import PullCache.Origin.Http
import PullCache.Server.Routes
/-!
# Proofs.Origin.EntityTag

Entity tags on their way through headers. The origin sends a tag in a header; it is kept without its
quotes as an attribute of a copy, and goes out again between quotes, to the origin when the copy is
asked about and to clients when it is served.

A tag is strong or weak, and between its quotes there may be any visible byte other than a quote and
any byte beyond ASCII. A strong tag in ASCII comes out as it went in. The mark of a weak tag ends up
between quotes of its own, and a tag with bytes beyond ASCII counts as absent (`sentBack?_value`).
-/

namespace PullCache

/-! ## Plain ASCII -/

namespace Utf8

/-- The text of bytes that are plain ASCII. -/
def asciiText (bs : Bytes) : List Char :=
  bs.map fun b => Char.ofNat b.toNat

variable {b : UInt8} {bs : Bytes}

theorem toNat_ofNat : ∀ n < 0x80, (Char.ofNat n).toNat = n := by decide

theorem encodeChar_ofNat (h : b.toNat < 0x80) : encodeChar (Char.ofNat b.toNat) = [b] := by
  simp [encodeChar, toNat_ofNat _ h, h]

/-- Bytes in ASCII are the encoding of their text. -/
theorem encode_asciiText (h : ∀ b ∈ bs, b.toNat < 0x80) : encode (asciiText bs) = bs := by
  induction bs with
  | nil => rfl
  | cons b rest ih =>
    obtain ⟨hb, hrest⟩ := List.forall_mem_cons.mp h
    have hencode : encode (asciiText rest) = rest := ih hrest
    simp only [asciiText, List.map_cons, encode_cons, encodeChar_ofNat hb] at hencode ⊢
    rw [hencode, List.singleton_append]

/-- Bytes in ASCII are decoded one by one. -/
theorem decodeUnits_ascii (h : ∀ b ∈ bs, b.toNat < 0x80) :
    decodeUnits bs = (asciiText bs).map some := by
  induction bs with
  | nil => simp [decodeUnits, asciiText]
  | cons b rest ih =>
    obtain ⟨hb, hrest⟩ := List.forall_mem_cons.mp h
    have hchar : decodeChar b rest = (some (Char.ofNat b.toNat), rest) := by simp [decodeChar, hb]
    simp [decodeUnits, hchar, ih hrest, asciiText]

/-- Bytes in ASCII are always text. -/
theorem decode?_ascii (h : ∀ b ∈ bs, b.toNat < 0x80) : decode? bs = some (asciiText bs) := by
  rw [decode?, decodeUnits_ascii h]
  induction asciiText bs with
  | nil => rfl
  | cons c cs ih => simp [ih]

end Utf8


/-! ## What becomes of a header value -/

/-- The value of the first header with a name. -/
def headerValue? (name : String) (headers : List (String × Bytes)) : Option Bytes :=
  (headers.find? fun h => h.1.map Text.lowerAscii == name).map (·.2)

@[simp] theorem headerValue?_nil (name : String) : headerValue? name [] = none := rfl

/-- Names are compared letter by letter, whether large or small. -/
@[simp] theorem headerValue?_cons (name : String) (h : String × Bytes)
    (headers : List (String × Bytes)) :
    headerValue? name (h :: headers) =
      if h.1.toList.map Text.lowerAscii = name.toList then some h.2
      else headerValue? name headers := by
  have hletters : h.1.toList.map Text.lowerAscii = name.toList ↔ h.1.map Text.lowerAscii = name := by
    rw [← String.toList_map, String.toList_inj]
  by_cases hname : h.1.map Text.lowerAscii = name <;> simp [headerValue?, hletters, hname]

/-- The first header with the name counts. -/
theorem headerValue?_append (name : String) (xs ys : List (String × Bytes)) :
    headerValue? name (xs ++ ys) = (headerValue? name xs).or (headerValue? name ys) := by
  simp only [headerValue?, List.find?_append, Option.map_or]

/-- A header that is left out unless its value can stand in one. -/
theorem headerValue?_header (name given value : String) :
    headerValue? name (Response.header given value) =
      if given.toList.map Text.lowerAscii = name.toList then
        (some (utf8 value)).filter Text.isHeaderValue
      else none := by
  by_cases hvalue : Text.isHeaderValue (utf8 value) = true <;>
    simp [Response.header, Option.filter, hvalue]

namespace Etag

/-- Bytes between quotes. -/
def inQuotes (bs : Bytes) : Bytes :=
  [0x22] ++ bs ++ [0x22]

/-- The tag that is kept of a header value, which counts as absent unless it is plain ASCII. -/
def kept? (raw : Bytes) : Option String :=
  if Text.isVisible raw then (utf8? raw).map fun s => String.ofList (unquote s.toList) else none

/-- The header value that a kept tag goes out as. -/
def shown (tag : String) : Bytes :=
  utf8 (String.ofList (quote tag.toList))

/-- The header value that goes out for one that came in. -/
def sentBack? (raw : Bytes) : Option Bytes :=
  (kept? raw).map shown

variable {raw : Bytes}

/-- Visible bytes are ASCII. -/
theorem toNat_lt_of_isVisible (h : Text.isVisible raw = true) : ∀ b ∈ raw, b.toNat < 0x80 := by
  intro b hb
  have hvisible := List.all_eq_true.mp h b hb
  simp only [Bool.or_eq_true, Bool.and_eq_true, decide_eq_true_eq] at hvisible
  obtain ⟨-, hlt⟩ | rfl := hvisible
  · omega
  · decide

/-- A visible tag is kept without its quotes. -/
theorem kept?_of_isVisible (h : Text.isVisible raw = true) :
    kept? raw = some (String.ofList (unquote (Utf8.asciiText raw))) := by
  rw [kept?, if_pos h, utf8?, Utf8.decode?_ascii (toNat_lt_of_isVisible h)]
  simp

/-- A tag in quotes loses both, and one that only begins with a quote loses none. -/
theorem unquote_cons_quote (cs : List Char) :
    unquote ('"' :: cs) = if cs.getLast? = some '"' then cs.dropLast else '"' :: cs := rfl

/-- Text without a quote in front stays as it is. -/
theorem unquote_cons_of_ne {c : Char} (h : c ≠ '"') (cs : List Char) :
    unquote (c :: cs) = c :: cs := by
  unfold unquote
  split
  · next rest heq => exact absurd (List.cons.inj heq).1 h
  · rfl

/-- What is left without quotes is part of what came in. -/
theorem unquote_asciiText (raw : Bytes) :
    ∃ inner ⊆ raw, unquote (Utf8.asciiText raw) = Utf8.asciiText inner := by
  cases raw with
  | nil => exact ⟨[], List.Subset.refl _, rfl⟩
  | cons b rest =>
    have hcons : Utf8.asciiText (b :: rest) = Char.ofNat b.toNat :: Utf8.asciiText rest := rfl
    by_cases hopened : Char.ofNat b.toNat = '"'
    · by_cases hclosed : (Utf8.asciiText rest).getLast? = some '"'
      · refine ⟨rest.dropLast, List.subset_cons_of_subset b (List.dropLast_subset rest), ?_⟩
        rw [hcons, hopened, unquote_cons_quote, if_pos hclosed, Utf8.asciiText, Utf8.asciiText,
          List.map_dropLast]
      · refine ⟨b :: rest, List.Subset.refl _, ?_⟩
        rw [hcons, hopened, unquote_cons_quote, if_neg hclosed]
    · refine ⟨b :: rest, List.Subset.refl _, ?_⟩
      rw [hcons, unquote_cons_of_ne hopened]

/-- A tag is shown in quotes, whatever it was received in. -/
theorem shown_asciiText {bs : Bytes} (h : ∀ b ∈ bs, b.toNat < 0x80) :
    shown (String.ofList (Utf8.asciiText bs)) = inQuotes bs := by
  have hquote : Utf8.encodeChar '"' = [0x22] := by decide
  simp [shown, utf8, quote, inQuotes, Utf8.encode_append, Utf8.encode_asciiText h, hquote]

/-- Visible bytes can stand in a header. -/
theorem isHeaderValue_of_isVisible {bs : Bytes} (h : Text.isVisible bs = true) :
    Text.isHeaderValue bs = true := by
  refine List.all_eq_true.mpr fun b hb => ?_
  have hvisible := List.all_eq_true.mp h b hb
  simp only [Bool.or_eq_true, Bool.and_eq_true, decide_eq_true_eq] at hvisible ⊢
  obtain ⟨hge, hlt⟩ | htab := hvisible
  · have hne : b ≠ 0x7F := by
      rintro rfl
      exact absurd hlt (by decide)
    exact .inl ⟨hge, hne⟩
  · exact .inr htab

/-- A kept tag can stand in a header. -/
theorem isHeaderValue_shown {tag : String} (h : kept? raw = some tag) :
    Text.isHeaderValue (shown tag) = true := by
  by_cases hvisible : Text.isVisible raw = true
  · rw [kept?_of_isVisible hvisible, Option.some.injEq] at h
    obtain ⟨inner, hpart, hinner⟩ := unquote_asciiText raw
    have hinside : Text.isVisible inner = true :=
      List.all_eq_true.mpr fun b hb => List.all_eq_true.mp hvisible b (hpart hb)
    have hquoted : Text.isVisible (inQuotes inner) = true := by
      simp only [Text.isVisible, inQuotes, List.all_append] at hinside ⊢
      simp [hinside]
    rw [← h, hinner, shown_asciiText (toNat_lt_of_isVisible hinside)]
    exact isHeaderValue_of_isVisible hquoted
  · rw [kept?, if_neg hvisible] at h
    contradiction

end Etag

/-! ## Headers with tags -/

/-- The text of a header is read only if it is plain ASCII. -/
theorem header?_eq (name : String) (a : HttpAnswer) :
    HttpOrigin.header? name a =
      (headerValue? name a.headers).bind fun value =>
        if Text.isVisible value then utf8? value else none := rfl

/-- The tag of an answer is what is kept of its header. -/
theorem replyOf_etag (a : HttpAnswer) :
    (HttpOrigin.replyOf a).etag = (headerValue? "etag" a.headers).bind Etag.kept? := by
  have hread : (HttpOrigin.replyOf a).etag = (HttpOrigin.header? "etag" a).map
      fun s => String.ofList (Etag.unquote s.toList) := rfl
  rw [hread, header?_eq]
  cases headerValue? "etag" a.headers with
  | none => rfl
  | some value =>
    rw [Option.bind_some, Option.bind_some, Etag.kept?]
    split <;> rfl

/-- The headers of a request that can be made. -/
theorem headers_of_prepare {agent : String} {request : OriginRequest} {out : HttpRequest}
    (h : HttpOrigin.prepare agent request = .ok out) :
    out.headers = ("user-agent", utf8 agent) ::
      ((request.ifModifiedSince.map fun t => ("if-modified-since", utf8 (HttpDate.text t))).toList ++
        (request.ifNoneMatch.map fun tag => ("if-none-match", Etag.shown tag)).toList) := by
  unfold HttpOrigin.prepare at h
  extract_lets url headers at h
  have hout : out.headers = headers := by
    split at h
    · contradiction
    · split at h
      · contradiction
      · split at h
        · contradiction
        · cases h
          rfl
  rw [hout]
  cases hsince : request.ifModifiedSince <;> cases htag : request.ifNoneMatch <;>
    simp [headers, hsince, htag, Etag.shown]

/-- A request carries the tag that it asks with. -/
theorem ifNoneMatch_of_prepare {agent : String} {request : OriginRequest} {out : HttpRequest}
    (h : HttpOrigin.prepare agent request = .ok out) :
    headerValue? "if-none-match" out.headers = request.ifNoneMatch.map Etag.shown := by
  rw [headers_of_prepare h]
  cases request.ifModifiedSince <;> cases request.ifNoneMatch <;> simp +decide

/-- Content is served with its tag, if that can stand in a header. -/
theorem etag_contentHeaders (a : Attributes) :
    headerValue? "etag" (Response.contentHeaders a) =
      (a.etag.map Etag.shown).filter Text.isHeaderValue := by
  unfold Response.contentHeaders
  cases a.lastModified <;> cases a.etag <;>
    simp +decide [headerValue?_append, headerValue?_header, Etag.shown]

/-! ## Entity tags -/

/-- Whether a byte may stand between the quotes of an entity tag: it is visible and no quote, or
beyond ASCII. -/
def isTagByte (b : UInt8) : Bool :=
  0x21 ≤ b.toNat && b.toNat ≠ 0x22 && b.toNat ≠ 0x7F

/-- An entity tag that an origin may send: what stands between its quotes, and whether it only says
that two contents are equivalent. -/
structure EntityTag where
  weak : Bool
  inner : Bytes
  permitted : inner.all isTagByte = true

namespace EntityTag

/-- The value of the header with the tag. -/
def value (t : EntityTag) : Bytes :=
  if t.weak then utf8 "W/" ++ Etag.inQuotes t.inner else Etag.inQuotes t.inner

/-- Whether the tag is plain ASCII. -/
def isPlain (t : EntityTag) : Bool :=
  t.inner.all fun b => b.toNat < 0x80

/-- What is inside the quotes is visible exactly if the tag is plain. -/
theorem isVisible_inner (t : EntityTag) : Text.isVisible t.inner = t.isPlain := by
  rw [Bool.eq_iff_iff, Text.isVisible, isPlain, List.all_eq_true, List.all_eq_true]
  refine forall₂_congr fun b hb => ?_
  have hpermitted := List.all_eq_true.mp t.permitted b hb
  simp only [isTagByte, Bool.or_eq_true, Bool.and_eq_true, decide_eq_true_eq] at hpermitted ⊢
  constructor
  · rintro (⟨-, hlt⟩ | rfl)
    · omega
    · decide
  · intro hlt
    exact .inl (by omega)

/-- Only bytes beyond ASCII make a tag count as absent. -/
theorem isVisible_value (t : EntityTag) : Text.isVisible t.value = t.isPlain := by
  have hmark : Text.isVisible (utf8 "W/") = true := by decide
  rw [← isVisible_inner]
  simp only [Text.isVisible] at hmark ⊢
  cases hweak : t.weak <;> simp [value, hweak, Etag.inQuotes, hmark]

/-- A strong tag is kept without its quotes. -/
theorem unquote_strong (inner : Bytes) :
    Etag.unquote (Utf8.asciiText (Etag.inQuotes inner)) = Utf8.asciiText inner := by
  have hquote : Char.ofNat (0x22 : UInt8).toNat = '"' := by decide
  have htext : Utf8.asciiText (Etag.inQuotes inner) = '"' :: (Utf8.asciiText inner ++ ['"']) := by
    rw [Utf8.asciiText, Etag.inQuotes, List.map_append, List.map_append, List.map_singleton, hquote]
    rfl
  rw [htext, Etag.unquote_cons_quote, List.getLast?_concat, if_pos rfl, List.dropLast_concat]

/-- A weak tag is kept as it is. -/
theorem unquote_weak (inner : Bytes) :
    Etag.unquote (Utf8.asciiText (utf8 "W/" ++ Etag.inQuotes inner)) =
      Utf8.asciiText (utf8 "W/" ++ Etag.inQuotes inner) :=
  Etag.unquote_cons_of_ne (by decide) _

/-- What a tag goes out as. A strong tag is itself again, and all of a weak one is put between
quotes. -/
theorem sentBack?_value (t : EntityTag) :
    Etag.sentBack? t.value =
      if t.isPlain then some (if t.weak then Etag.inQuotes t.value else t.value) else none := by
  by_cases hplain : t.isPlain = true
  · have hvisible : Text.isVisible t.value = true := (isVisible_value t).trans hplain
    have hascii := Etag.toNat_lt_of_isVisible hvisible
    rw [Etag.sentBack?, Etag.kept?_of_isVisible hvisible, if_pos hplain, Option.map_some]
    cases hweak : t.weak with
    | true =>
      have hvalue : t.value = utf8 "W/" ++ Etag.inQuotes t.inner := by simp [value, hweak]
      rw [hvalue] at hascii ⊢
      rw [unquote_weak, Etag.shown_asciiText hascii, if_pos rfl]
    | false =>
      have hvalue : t.value = Etag.inQuotes t.inner := by simp [value, hweak]
      have hinner : ∀ b ∈ t.inner, b.toNat < 0x80 :=
        Etag.toNat_lt_of_isVisible ((isVisible_inner t).trans hplain)
      rw [hvalue, unquote_strong, Etag.shown_asciiText hinner]
      rfl
  · have hvisible : ¬ Text.isVisible t.value = true := by rwa [isVisible_value]
    rw [Etag.sentBack?, Etag.kept?, if_neg hvisible, if_neg hplain]
    rfl

/-- A tag goes out as it came in exactly if it is strong and plain ASCII. -/
theorem sentBack?_value_eq_iff (t : EntityTag) :
    Etag.sentBack? t.value = some t.value ↔ t.weak = false ∧ t.isPlain = true := by
  have hlonger : Etag.inQuotes t.value ≠ t.value := by
    intro h
    have hlength := congrArg List.length h
    simp only [Etag.inQuotes, List.length_append, List.length_singleton] at hlength
    omega
  rw [sentBack?_value]
  cases t.isPlain <;> cases t.weak <;> simp [hlonger]

end EntityTag

/-- A header that goes out is made from the tag of an answer. A tag that an origin may send is intact
in it exactly if it is strong and plain ASCII. -/
structure Echoes (a : HttpAnswer) (header : Option Bytes) : Prop where
  made : header = (headerValue? "etag" a.headers).bind Etag.sentBack?
  intact : ∀ t : EntityTag, headerValue? "etag" a.headers = some t.value →
    (header = some t.value ↔ t.weak = false ∧ t.isPlain = true)

/-- A header that repeats what is kept of the tag echoes it. -/
theorem echoes_of_eq {a : HttpAnswer} {header : Option Bytes}
    (h : header = (headerValue? "etag" a.headers).bind Etag.sentBack?) : Echoes a header where
  made := h
  intact t ht := by
    rw [h, ht, Option.bind_some]
    exact t.sentBack?_value_eq_iff

end PullCache
