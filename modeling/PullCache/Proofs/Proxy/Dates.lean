import PullCache.Proofs.Proxy.Validators
/-!
# Proofs.Proxy.Dates

The dates of content in whole runs. A date comes in with an answer over HTTP, stays with the copy, and
goes out with every request that asks about the copy and every answer that serves it. By the flow of
content both are the date of one answer 200 for the same key, and a date whose year has four digits is
read from them as it was read from that answer (`dates_survive`).
-/

namespace PullCache.Proxy

variable {start q : Proxy MemoryStore} {events : List ProxyEvent} {a : HttpAnswer} {k : Key}
  {c : Content}

/-! ## The header of a date -/

/-- The date in the header of an answer, as dates are read. -/
def sentDate? (a : HttpAnswer) : Option Instant :=
  (headerValue? "last-modified" a.headers).bind HttpDate.read?

/-- A header that goes out is made from the date in the header of an answer. Read as dates are read, it
denotes that date exactly, and nothing if the year of the date does not have four digits. -/
structure ShowsDate (a : HttpAnswer) (header : Option Bytes) : Prop where
  made : header = (sentDate? a).map HttpDate.value
  read : header.bind HttpDate.read? = (sentDate? a).filter fun t => t.HasShortYear

/-- A header with the date of the answer shows it. -/
theorem showsDate_of_eq {header : Option Bytes} (h : header = (sentDate? a).map HttpDate.value) :
    ShowsDate a header := by
  refine ⟨h, ?_⟩
  rw [h]
  cases hdate : sentDate? a with
  | none => rfl
  | some t =>
    obtain ⟨raw, -, hraw⟩ := Option.bind_eq_some_iff.mp hdate
    simp [HttpDate.read?_value_of_read? hraw, Option.filter]

/-- The date of content is the one in the header of the answer. -/
theorem GivenBy.lastModified_eq (h : GivenBy start events a k c.said) :
    c.attributes.lastModified = sentDate? a :=
  (congrArg Attributes.lastModified h.said).trans (replyOf_lastModified a)

/-- A request that asks about content carries its date. -/
theorem GivenBy.asksSince (h : GivenBy start events a k c.said) {request : OriginRequest} (url : Url)
    (hrequest : request = OriginRequest.revalidating { url } c) {agent : String} {out : HttpRequest}
    (hout : HttpOrigin.prepare agent request = .ok out) :
    ShowsDate a (headerValue? "if-modified-since" out.headers) := by
  have hdate : request.ifModifiedSince = c.attributes.lastModified := by
    rw [hrequest]
    rfl
  refine showsDate_of_eq ?_
  rw [ifModifiedSince_of_prepare hout, hdate, h.lastModified_eq]

/-- Content is served with its date. -/
theorem GivenBy.servedSince (h : GivenBy start events a k c.said) (r : Resource) (s : Streams)
    (hserved : (Response.ofResult r (.ok (some c)) s).1.status = 200) :
    ShowsDate a
      (headerValue? "last-modified" (Response.ofResult r (.ok (some c)) s).1.headers) := by
  refine showsDate_of_eq ?_
  rw [headers_of_served hserved, lastModified_contentHeaders, h.lastModified_eq]

/-- **Dates.** A date with a year of four digits is written so that it is read as the start of its
second, and dates are read in the order of their seconds. In a run over HTTP, with any number of gets
that are interleaved in any way:

* The copy that a request asks about is as an answer 200 said, to a request for the same key. If the
  request can be made, its `if-modified-since` denotes the date of every such answer.
* Content that a get returns is as an answer 200 said, to a request for the same key. If it can be
  served, its `last-modified` denotes the date of every such answer. -/
theorem dates_survive {config : Config} {capacity : Nat} {now : Instant}
    (hnew : Proxy.new config (MemoryStore.empty capacity) now = .ok start)
    (hrun : start.run MemoryStore.ops events = some q) (http : OverHttp events) :
    (∀ t : Instant, t.IsProper → HttpDate.read? (HttpDate.value t) =
      if t.HasShortYear then some t.wholeSecond else none) ∧
    (∀ t u : Instant, t.leap = false → u.leap = false → t.HasShortYear → u.HasShortYear →
      ∃ t' u', HttpDate.read? (HttpDate.value t) = some t' ∧
        HttpDate.read? (HttpDate.value u) = some u' ∧
        (t'.before u' = true ↔ t.seconds < u.seconds)) ∧
    (∀ (i : Nat) (fetch : Fetch) (c : Content) (request : OriginRequest),
      q.fetches[i]? = some fetch → fetch.phase = .waiting (some c) request →
      (∃ a, GivenBy start events a fetch.resource.key c.said) ∧
      ∀ a, GivenBy start events a fetch.resource.key c.said →
        ∀ agent out, HttpOrigin.prepare agent request = .ok out →
          ShowsDate a (headerValue? "if-modified-since" out.headers)) ∧
    ∀ (g : Nat) (get : Get) (c : Content),
      q.gets[g]? = some get → q.getState g = .returned (.ok (some c)) →
      (∃ a, GivenBy start events a get.resource.key c.said) ∧
      ∀ a, GivenBy start events a get.resource.key c.said →
        ∀ s, (Response.ofResult get.resource (.ok (some c)) s).1.status = 200 →
          ShowsDate a (headerValue? "last-modified"
            (Response.ofResult get.resource (.ok (some c)) s).1.headers) := by
  have hflows := given_of_run hnew hrun http
  refine ⟨fun t hproper => HttpDate.read?_value hproper, ?_, ?_, ?_⟩
  · intro t u ht hu htyear huyear
    -- Without a leap second every date is proper, so it is read to the second.
    have hread : ∀ {t : Instant}, t.leap = false → t.HasShortYear →
        HttpDate.read? (HttpDate.value t) = some t.wholeSecond := by
      intro t ht hyear
      have hproper : t.IsProper := fun hleap => absurd (ht.symm.trans hleap) Bool.false_ne_true
      rw [HttpDate.read?_value hproper, if_pos hyear]
    exact ⟨t.wholeSecond, u.wholeSecond, hread ht htyear, hread hu huyear,
      HttpDate.before_wholeSecond_iff ht hu⟩
  · intro i fetch c request hfetch hwaiting
    have hcarries := hflows.fetches i fetch hfetch
    have hasks := asksAboutCopy_of_run (new_eq_ok hnew).2.2.1 hrun hfetch
    rw [hwaiting] at hcarries hasks
    exact ⟨hcarries, fun a hgiven agent out hout => hgiven.asksSince _ hasks hout⟩
  · intro g get c hget hreturned
    exact ⟨hflows.tells_getState hget hreturned, fun a hgiven s => hgiven.servedSince get.resource s⟩

/-! ## A leap day -/

/-- Noon of 29 February 2024. -/
def leapDay : Instant :=
  .ofMillis 1709208000000

/-- The answer 200 with an empty jar and this date. -/
def datedAnswer : HttpAnswer where
  status := 200
  headers := [("Last-Modified", HttpDate.value leapDay)]
  body := []
  length := some 0

/-- What is read from it. -/
def datedReply : Reply where
  status := 200
  body := some (.chunks [] (some 0))
  lastModified := some leapDay

/-- The copy that is made of it. -/
def datedCopy : Content where
  payload := .buffered []
  attributes.lastModified := some leapDay
  attributes.stamp := some ⟨.ofMillis 0, 86400, some (.issued 0)⟩

/-- The jar is fetched with its date; when it is stale, the origin is asked about it. -/
def askedSince : List ProxyEvent :=
  asked ++ [.answer 0 (.ok datedReply), .handle 0, .stored 0, .publish 0, .release 0, .deliver 0,
    .tick 86401000000000] ++ [.request jar, .lookUp 1, .judge 1, .enter 1, .ask 1]

/-- The request that asks about the jar. -/
def sinceRequest : OriginRequest where
  url := { oldRemote with path := .segments ["repo", "a.jar"] }
  ifModifiedSince := some leapDay

/-- The run of the example: the copy is dated, and the question carries its date. -/
theorem run_askedSince :
    ∃ q, oldStart.run MemoryStore.ops askedSince = some q ∧
      q.fetches[1]? = some ⟨.lease 1, jar, true, .waiting (some datedCopy) sinceRequest⟩ ∧
      q.gets[0]? = some ⟨jar, .called 0⟩ ∧
      q.getState 0 = .returned (.ok (some datedCopy)) :=
  ⟨_, rfl, rfl, rfl, rfl⟩

/-- The leap day is read as it was written. -/
theorem read?_leapDay : HttpDate.read? (HttpDate.value leapDay) = some leapDay := by
  have hproper : leapDay.IsProper := by simp [Instant.IsProper, leapDay, Instant.ofMillis]
  have hyear : leapDay.HasShortYear := by decide
  rw [HttpDate.read?_value hproper, if_pos hyear]
  rfl

theorem replyOf_datedAnswer : HttpOrigin.replyOf datedAnswer = datedReply := by
  have hdate : (HttpOrigin.replyOf datedAnswer).lastModified = some leapDay := by
    simp +decide [replyOf_lastModified, datedAnswer, read?_leapDay]
  have htag : HttpOrigin.header? "etag" datedAnswer = none := by
    simp +decide [header?_eq, datedAnswer]
  have htype : HttpOrigin.header? "content-type" datedAnswer = none := by
    simp +decide [header?_eq, datedAnswer]
  rw [HttpOrigin.replyOf, Reply.mk.injEq]
  rw [HttpOrigin.replyOf] at hdate
  exact ⟨rfl, rfl, hdate, by rw [htag]; rfl, htype⟩

theorem prepare_sinceRequest : ∃ out, HttpOrigin.prepare "" sinceRequest = .ok out :=
  exists_prepare rfl (by simp [sinceRequest])

/-- The run comes about over HTTP. -/
theorem overHttp_askedSince : OverHttp askedSince := by
  intro i reply hmem
  obtain ⟨rfl, rfl⟩ : i = 0 ∧ reply = .ok datedReply := by
    simpa [askedSince, asked] using hmem
  obtain ⟨out, hout⟩ := prepare_sinceRequest
  rw [← replyOf_datedAnswer]
  exact exists_fetch_of_prepare hout datedAnswer

/-- The leap day goes out as it came in, to the origin and to the client. -/
theorem leap_day_survives : ∃ q a out, oldStart.run MemoryStore.ops askedSince = some q ∧
    OverHttp askedSince ∧
    GivenBy oldStart askedSince a jar.key datedCopy.said ∧
    HttpOrigin.prepare "" sinceRequest = .ok out ∧
    (headerValue? "if-modified-since" out.headers).bind HttpDate.read? = some leapDay ∧
    (headerValue? "last-modified" (Response.ofResult jar (.ok (some datedCopy)) .empty).1.headers).bind
      HttpDate.read? = some leapDay := by
  obtain ⟨q, hrun, hfetch, hget, hreturned⟩ := run_askedSince
  have http := overHttp_askedSince
  obtain ⟨-, -, hasked, hserved⟩ := dates_survive new_oldConfig hrun http
  obtain ⟨⟨a, hgiven⟩, hshows⟩ := hasked 1 _ _ _ hfetch rfl
  obtain ⟨-, hshows'⟩ := hserved 0 _ _ hget hreturned
  obtain ⟨out, hout⟩ := prepare_sinceRequest
  have hyear : leapDay.HasShortYear := by decide
  have hdate : (sentDate? a).filter (fun t => t.HasShortYear) = some leapDay := by
    rw [← hgiven.lastModified_eq]
    simp [datedCopy, Option.filter, hyear]
  refine ⟨q, a, out, hrun, http, hgiven, hout, ?_, ?_⟩
  · rw [(hshows a hgiven "" out hout).read, hdate]
  · rw [(hshows' a hgiven .empty rfl).read, hdate]

end PullCache.Proxy
