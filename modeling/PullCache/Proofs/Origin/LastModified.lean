import PullCache.Proofs.Origin.EntityTag
import PullCache.Proofs.Text.Encoded
import PullCache.Proofs.Time.HttpDate
/-!
# Proofs.Origin.LastModified

The date of content on its way through headers. The origin sends it in a header; it is kept as an
attribute of a copy, and goes out again to the origin when the copy is asked about and to clients
when it is served. What goes out is plain ASCII and denotes the same second, as long as the year has
four digits (`read?_value`).
-/

namespace PullCache

namespace Text

variable {c : Char} {cs ds : List Char}

/-- Whether a character is plain ASCII that can be shown. -/
def isShown (c : Char) : Bool :=
  0x20 ≤ c.toNat && c.toNat < 0x7F

/-- Shown characters are visible bytes. -/
theorem isVisible_encode (h : cs.all isShown = true) : isVisible (Utf8.encode cs) = true := by
  induction cs with
  | nil => rfl
  | cons c cs ih =>
    simp only [List.all_cons, isShown, Bool.and_eq_true, decide_eq_true_eq] at h
    obtain ⟨⟨hlow, hhigh⟩, hrest⟩ := h
    have hencode := ih hrest
    have hbyte : (UInt8.ofNat c.toNat).toNat = c.toNat := Utf8.toNat_byte (by omega)
    simp only [isVisible] at hencode ⊢
    simp [Utf8.encodeChar_ascii (by omega : c.toNat < 0x80), hencode, hbyte, hlow, hhigh]

/-- Padded numbers can be shown. -/
theorem isShown_padded (width n : Nat) : (padded width n).toList.all isShown = true := by
  refine List.all_eq_true.mpr fun c hc => ?_
  have hrange := toNat_of_isAsciiDigit (isAsciiDigit_of_mem_padded hc)
  simp only [isShown, Bool.and_eq_true, decide_eq_true_eq]
  omega

end Text

namespace HttpDate

variable {t : Instant}

/-- The value of a header with a date. -/
def value (t : Instant) : Bytes :=
  utf8 (text t)

/-- Reads the value of a header with a date, which counts as absent unless it is plain ASCII. -/
def read? (raw : Bytes) : Option Instant :=
  if Text.isVisible raw then (utf8? raw).bind fun s => parse? s.toList else none

theorem isShown_weekdayName : ∀ i < 7, (weekdayName i).all Text.isShown = true := by
  decide

theorem isShown_monthName : ∀ i < 12, (monthName i).all Text.isShown = true := by
  decide

/-- Years can be shown, whatever they are. -/
theorem isShown_yearText (y : Int) : (Instant.yearText y).toList.all Text.isShown = true := by
  have hminus : Text.isShown '-' = true := by decide
  have hplus : Text.isShown '+' = true := by decide
  unfold Instant.yearText
  split
  · exact Text.isShown_padded 4 y.toNat
  · split <;> simp [hminus, hplus, Text.isShown_padded, -List.all_eq_true]

/-- A date can stand in a header. -/
theorem isVisible_value (t : Instant) : Text.isVisible (value t) = true := by
  have hmarks : [',', ' ', ':', 'G', 'M', 'T'].all Text.isShown = true := by decide
  have hmonth : t.date.month - 1 < 12 := by
    have hlast : t.date.month ≤ 12 := (Civil.ofDays_bounds (t.seconds / 86400)).2.1
    omega
  refine Text.isVisible_encode ?_
  rw [toList_text]
  simp only [List.all_cons, List.all_nil, Bool.and_true, Bool.and_eq_true] at hmarks
  simp only [List.all_append, List.all_cons, List.all_nil, Bool.and_self, hmarks,
    isShown_weekdayName _ (weekday_lt t), isShown_monthName _ hmonth, isShown_yearText,
    Text.isShown_padded]

/-- A date is read back as the start of its second, if its year has four digits, and not at all
otherwise. -/
theorem read?_value (hproper : t.IsProper) :
    read? (value t) = if t.HasShortYear then some t.wholeSecond else none := by
  have hdecoded : utf8? (value t) = some (text t) := by
    simp [value, utf8, utf8?, Utf8.decode?_encode]
  rw [read?, if_pos (isVisible_value t), hdecoded, Option.bind_some]
  by_cases hyear : t.HasShortYear
  · rw [parse?_text hyear hproper, if_pos hyear]
  · rw [parse?_text_eq_none hyear, if_neg hyear]

/-- Dates are read to the second, and leap seconds only where there can be one. -/
theorem read?_whole {raw : Bytes} (h : read? raw = some t) : t.wholeSecond = t ∧ t.IsProper := by
  unfold read? at h
  split at h
  · obtain ⟨s, -, hparse⟩ := Option.bind_eq_some_iff.mp h
    exact parse?_whole hparse
  · contradiction

/-- A date that was read goes out as one that is read the same, if its year has four digits. -/
theorem read?_value_of_read? {raw : Bytes} (h : read? raw = some t) :
    read? (value t) = if t.HasShortYear then some t else none := by
  obtain ⟨hwhole, hproper⟩ := read?_whole h
  rw [read?_value hproper, hwhole]

end HttpDate

/-! ## Headers with dates -/

/-- The date of an answer is what is read of its header. -/
theorem replyOf_lastModified (a : HttpAnswer) : (HttpOrigin.replyOf a).lastModified =
    (headerValue? "last-modified" a.headers).bind HttpDate.read? := by
  have hread : (HttpOrigin.replyOf a).lastModified =
      (HttpOrigin.header? "last-modified" a).bind fun s => HttpDate.parse? s.toList := rfl
  rw [hread, header?_eq, Option.bind_assoc]
  refine Option.bind_congr fun value _ => ?_
  rw [HttpDate.read?]
  split <;> rfl

/-- A request carries the date that it asks with. -/
theorem ifModifiedSince_of_prepare {agent : String} {request : OriginRequest} {out : HttpRequest}
    (h : HttpOrigin.prepare agent request = .ok out) :
    headerValue? "if-modified-since" out.headers = request.ifModifiedSince.map HttpDate.value := by
  rw [headers_of_prepare h]
  cases request.ifModifiedSince <;> cases request.ifNoneMatch <;> simp +decide [HttpDate.value]

/-- Content is served with its date. -/
theorem lastModified_contentHeaders (a : Attributes) :
    headerValue? "last-modified" (Response.contentHeaders a) = a.lastModified.map HttpDate.value := by
  have hheader : ∀ t, Text.isHeaderValue (utf8 (HttpDate.text t)) = true := fun t =>
    Etag.isHeaderValue_of_isVisible (HttpDate.isVisible_value t)
  unfold Response.contentHeaders
  cases a.lastModified <;> cases a.etag <;>
    simp +decide [headerValue?_append, headerValue?_header, HttpDate.value, Option.filter, hheader]

end PullCache
