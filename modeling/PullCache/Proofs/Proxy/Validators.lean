import PullCache.Proofs.Origin.LastModified
import PullCache.Proofs.Proxy.Flow
/-!
# Proofs.Proxy.Validators

Entity tags in whole runs. A tag comes in with an answer over HTTP, stays with the copy, and goes out
with every request that asks about the copy and every answer that serves it. By the flow of content
both are made from the header of one answer 200 for the same key, by `Etag.sentBack?`. So a strong
tag in ASCII survives, and no other one does (`entity_tag_survives_iff`).
-/

namespace PullCache.Proxy

variable {start q : Proxy MemoryStore} {events : List ProxyEvent} {a : HttpAnswer} {k : Key}
  {c : Content}

/-! ## Answers over HTTP -/

/-- All answers of a run are what a client makes of exchanges over HTTP. -/
def OverHttp (events : List ProxyEvent) : Prop :=
  ∀ i reply, .answer i reply ∈ events → ∃ carry now request client,
    reply = (HttpOrigin.fetch carry now request client).1

/-- A client hands on only what it has read from an answer. -/
theorem exists_answer_of_fetch {carry : Carrier} {now : Instant} {request : OriginRequest}
    {client : HttpOrigin} {reply : Reply}
    (h : (HttpOrigin.fetch carry now request client).1 = .ok reply) :
    ∃ a, reply = HttpOrigin.replyOf a := by
  unfold HttpOrigin.fetch at h
  split at h
  · contradiction
  · split at h
    · next sent hsent =>
      cases h
      unfold HttpOrigin.send at hsent
      split at hsent
      · contradiction
      · split at hsent
        · next a _ => exact ⟨a, (Except.ok.inj hsent).symm⟩
        · contradiction
    · contradiction

/-- An answer 200 in a run, to a request for a key, says this about content. -/
structure GivenBy (start : Proxy MemoryStore) (events : List ProxyEvent) (a : HttpAnswer) (k : Key)
    (said : Attributes) : Prop where
  status : a.status = 200
  said : said = (HttpOrigin.replyOf a).said
  answered : ∃ n p i fetch, Happens start events n p (.answer i (.ok (HttpOrigin.replyOf a))) ∧
    p.fetches[i]? = some fetch ∧ fetch.resource.key = k

/-- All content of a run is as an answer over HTTP says. -/
theorem given_of_run {config : Config} {capacity : Nat} {now : Instant}
    (hnew : Proxy.new config (MemoryStore.empty capacity) now = .ok start)
    (hrun : start.run MemoryStore.ops events = some q) (http : OverHttp events) :
    Flows (fun k said => ∃ a, GivenBy start events a k said) q := by
  obtain ⟨hstore, hgets, hfetches, -⟩ := new_eq_ok hnew
  refine flow_of_run ⟨⟨capacity, hstore⟩, hgets, hfetches⟩ (new_coop hnew) hrun ?_
  intro n p i fetch reply hplace hfetch hok
  obtain ⟨carry, t, request, client, hreply⟩ := http i _ (List.mem_of_getElem? hplace.event)
  obtain ⟨a, rfl⟩ := exists_answer_of_fetch hreply.symm
  exact ⟨a, hok, rfl, n, p, i, fetch, hplace, hfetch, rfl⟩

/-! ## The header of a tag -/

/-- The tag of content goes out as what the header of the answer makes of it. -/
theorem GivenBy.shown (h : GivenBy start events a k c.said) :
    c.attributes.etag.map Etag.shown = (headerValue? "etag" a.headers).bind Etag.sentBack? := by
  have htag : c.attributes.etag = (headerValue? "etag" a.headers).bind Etag.kept? := by
    rw [← replyOf_etag]
    exact congrArg Attributes.etag h.said
  rw [htag, Option.map_bind]
  rfl

/-- What goes out for a tag that came in can stand in a header. -/
theorem GivenBy.isHeaderValue (h : GivenBy start events a k c.said) {tag : String}
    (htag : c.attributes.etag = some tag) : Text.isHeaderValue (Etag.shown tag) = true := by
  have hkept : (headerValue? "etag" a.headers).bind Etag.kept? = some tag := by
    rw [← replyOf_etag, ← htag]
    exact (congrArg Attributes.etag h.said).symm
  obtain ⟨raw, -, hraw⟩ := Option.bind_eq_some_iff.mp hkept
  exact Etag.isHeaderValue_shown hraw

/-- A request that asks about content carries its tag. -/
theorem GivenBy.asked (h : GivenBy start events a k c.said) {request : OriginRequest} (url : Url)
    (hrequest : request = OriginRequest.revalidating { url } c) {agent : String} {out : HttpRequest}
    (hout : HttpOrigin.prepare agent request = .ok out) :
    Echoes a (headerValue? "if-none-match" out.headers) := by
  have htag : request.ifNoneMatch = c.attributes.etag := by
    rw [hrequest]
    rfl
  refine echoes_of_eq ?_
  rw [ifNoneMatch_of_prepare hout, htag, h.shown]

/-- Content that can be served at all has its headers. -/
theorem headers_of_served {r : Resource} {s : Streams}
    (hserved : (Response.ofResult r (.ok (some c)) s).1.status = 200) :
    (Response.ofResult r (.ok (some c)) s).1.headers = Response.contentHeaders c.attributes := by
  simp only [Response.ofResult, Response.ofContent] at hserved ⊢
  split
  · rfl
  · next body hbody =>
    rw [hbody] at hserved
    split
    · rfl
    · next htaken =>
      simp [htaken] at hserved

/-- Content is served with its tag. -/
theorem GivenBy.served (h : GivenBy start events a k c.said) (r : Resource) (s : Streams)
    (hserved : (Response.ofResult r (.ok (some c)) s).1.status = 200) :
    Echoes a (headerValue? "etag" (Response.ofResult r (.ok (some c)) s).1.headers) := by
  refine echoes_of_eq ?_
  rw [headers_of_served hserved, etag_contentHeaders, ← h.shown]
  cases htag : c.attributes.etag with
  | none => rfl
  | some tag => simp [Option.filter, h.isHeaderValue htag]

/-- **Entity tags.** A tag that an origin may send goes out as it came in exactly if it is strong and
plain ASCII. In a run over HTTP, with any number of gets that are interleaved in any way:

* The copy that a request asks about is as an answer 200 said, to a request for the same key. If the
  request can be made, its `if-none-match` echoes the tag of every such answer.
* Content that a get returns is as an answer 200 said, to a request for the same key. If it can be
  served, its `etag` echoes the tag of every such answer.

So both are the value that the origin sent exactly if its tag is strong and plain ASCII. -/
theorem entity_tag_survives_iff {config : Config} {capacity : Nat} {now : Instant}
    (hnew : Proxy.new config (MemoryStore.empty capacity) now = .ok start)
    (hrun : start.run MemoryStore.ops events = some q) (http : OverHttp events) :
    (∀ t : EntityTag,
      Etag.sentBack? t.value = some t.value ↔ t.weak = false ∧ t.isPlain = true) ∧
    (∀ (i : Nat) (fetch : Fetch) (c : Content) (request : OriginRequest),
      q.fetches[i]? = some fetch → fetch.phase = .waiting (some c) request →
      (∃ a, GivenBy start events a fetch.resource.key c.said) ∧
      ∀ a, GivenBy start events a fetch.resource.key c.said →
        ∀ agent out, HttpOrigin.prepare agent request = .ok out →
          Echoes a (headerValue? "if-none-match" out.headers)) ∧
    ∀ (g : Nat) (get : Get) (c : Content),
      q.gets[g]? = some get → q.getState g = .returned (.ok (some c)) →
      (∃ a, GivenBy start events a get.resource.key c.said) ∧
      ∀ a, GivenBy start events a get.resource.key c.said →
        ∀ s, (Response.ofResult get.resource (.ok (some c)) s).1.status = 200 →
          Echoes a
            (headerValue? "etag" (Response.ofResult get.resource (.ok (some c)) s).1.headers) := by
  have hflows := given_of_run hnew hrun http
  refine ⟨EntityTag.sentBack?_value_eq_iff, ?_, ?_⟩
  · intro i fetch c request hfetch hwaiting
    have hcarries := hflows.fetches i fetch hfetch
    have hasks := asksAboutCopy_of_run (new_eq_ok hnew).2.2.1 hrun hfetch
    rw [hwaiting] at hcarries hasks
    exact ⟨hcarries, fun a hgiven agent out hout => hgiven.asked _ hasks hout⟩
  · intro g get c hget hreturned
    exact ⟨hflows.tells_getState hget hreturned, fun a hgiven s => hgiven.served get.resource s⟩

/-! ## A tag that survives and one that does not -/

/-- The answer 200 with an empty jar and a tag. -/
def tagged (raw : Bytes) : HttpAnswer where
  status := 200
  headers := [("ETag", raw)]
  body := []
  length := some 0

/-- What is read from it when this is kept of the tag. -/
def taggedReply (tag : String) : Reply where
  status := 200
  body := some (.chunks [] (some 0))
  etag := some tag

/-- The jar is fetched with a tag; when it is stale, the origin is asked about it. -/
def revisit (tag : String) : List ProxyEvent :=
  asked ++ [.answer 0 (.ok (taggedReply tag)), .handle 0, .stored 0, .publish 0, .release 0,
    .deliver 0, .tick 86401000000000] ++
  [.request jar, .lookUp 1, .judge 1, .enter 1, .ask 1]

/-- The request that asks about the jar. -/
def tagRequest (tag : String) : OriginRequest where
  url := { oldRemote with path := .segments ["repo", "a.jar"] }
  ifNoneMatch := some tag

/-- The run of the example: the copy has its tag, and the question carries it. -/
theorem run_revisit {tag : String} (htag : tag = "v1" ∨ tag = "W/\"v1\"") :
    ∃ q, oldStart.run MemoryStore.ops (revisit tag) = some q ∧
      q.fetches[1]? =
        some ⟨.lease 1, jar, true, .waiting (some (revised tag [] 0)) (tagRequest tag)⟩ ∧
      q.gets[0]? = some ⟨jar, .called 0⟩ ∧
      q.getState 0 = .returned (.ok (some (revised tag [] 0))) := by
  obtain rfl | rfl := htag
  · exact ⟨_, rfl, rfl, rfl, rfl⟩
  · exact ⟨_, rfl, rfl, rfl, rfl⟩

theorem replyOf_tagged {raw : Bytes} {tag : String} (h : Etag.kept? raw = some tag) :
    HttpOrigin.replyOf (tagged raw) = taggedReply tag := by
  have hdate : HttpOrigin.header? "last-modified" (tagged raw) = none := by
    simp +decide [header?_eq, tagged]
  have htype : HttpOrigin.header? "content-type" (tagged raw) = none := by
    simp +decide [header?_eq, tagged]
  have htag : (HttpOrigin.replyOf (tagged raw)).etag = some tag := by
    simp +decide [replyOf_etag, tagged, h]
  rw [HttpOrigin.replyOf, Reply.mk.injEq]
  rw [HttpOrigin.replyOf] at htag
  exact ⟨rfl, rfl, by rw [hdate]; rfl, htag, htype⟩

/-- A request for the jar can be made, if its tag can stand in a header. -/
theorem exists_prepare {request : OriginRequest}
    (hurl : request.url = { oldRemote with path := .segments ["repo", "a.jar"] })
    (htag : ∀ tag ∈ request.ifNoneMatch, Text.isHeaderValue (Etag.shown tag) = true) :
    ∃ out, HttpOrigin.prepare "" request = .ok out := by
  have hplain : HttpOrigin.withoutCredentials request.url = request.url := by
    rw [hurl]
    unfold HttpOrigin.withoutCredentials
    split <;> rfl
  have hreached : request.url.hasHost = true := by rw [hurl]; rfl
  have hscheme : ["http", "https"].contains request.url.scheme = true := by rw [hurl]; rfl
  have hhost : HttpOrigin.hasPlainHost request.url = true := by
    rw [hurl]
    decide
  have hagent : Text.isHeaderValue (utf8 "") = true := rfl
  have hdate : ∀ t, Text.isHeaderValue (utf8 (HttpDate.text t)) = true := fun t =>
    Etag.isHeaderValue_of_isVisible (HttpDate.isVisible_value t)
  unfold Etag.shown at htag
  rw [HttpOrigin.prepare]
  cases hsince : request.ifModifiedSince <;> cases hnone : request.ifNoneMatch <;>
    simp [hplain, hreached, hscheme, hhost, hagent, hdate, hnone ▸ htag, -List.contains_eq_mem]

theorem prepare_tagRequest {tag : String} (h : Text.isHeaderValue (Etag.shown tag) = true) :
    ∃ out, HttpOrigin.prepare "" (tagRequest tag) = .ok out :=
  exists_prepare rfl (by simpa [tagRequest] using h)

/-- Any answer can come about over HTTP, to a request that can be made. -/
theorem exists_fetch_of_prepare {request : OriginRequest} {out : HttpRequest}
    (h : HttpOrigin.prepare "" request = .ok out) (a : HttpAnswer) :
    ∃ carry now request client,
      .ok (HttpOrigin.replyOf a) = (HttpOrigin.fetch carry now request client).1 := by
  refine ⟨fun _ => some a, .ofMillis 0, request, ⟨"", .new "" .disabled⟩, ?_⟩
  have hsend : HttpOrigin.send (fun _ => some a) "" request = .ok (HttpOrigin.replyOf a) := by
    rw [HttpOrigin.send, h]
  have hfree : (AutoBlock.new "" .disabled).check (.ofMillis 0) = .ok () := rfl
  rw [HttpOrigin.fetch]
  simp only [hfree, hsend]

/-- The runs come about over HTTP. -/
theorem overHttp_revisit {raw : Bytes} {tag : String} (h : Etag.kept? raw = some tag) :
    OverHttp (revisit tag) := by
  intro i reply hmem
  obtain ⟨rfl, rfl⟩ : i = 0 ∧ reply = .ok (taggedReply tag) := by
    simpa [revisit, asked] using hmem
  obtain ⟨out, hout⟩ := prepare_tagRequest (Etag.isHeaderValue_shown h)
  rw [← replyOf_tagged h]
  exact exists_fetch_of_prepare hout (tagged raw)

def strongTag : EntityTag := ⟨false, utf8 "v1", by decide⟩

def weakTag : EntityTag := ⟨true, utf8 "v1", by decide⟩

theorem kept?_strongTag : Etag.kept? strongTag.value = some "v1" := by
  have hvisible : Text.isVisible strongTag.value = true := by decide
  rw [Etag.kept?_of_isVisible hvisible]
  rfl

theorem kept?_weakTag : Etag.kept? weakTag.value = some "W/\"v1\"" := by
  have hvisible : Text.isVisible weakTag.value = true := by decide
  rw [Etag.kept?_of_isVisible hvisible]
  rfl

/-- The strong tag goes out as it came in, to the origin and to the client. -/
theorem strong_tag_survives : ∃ q a out, oldStart.run MemoryStore.ops (revisit "v1") = some q ∧
    OverHttp (revisit "v1") ∧
    GivenBy oldStart (revisit "v1") a jar.key (revised "v1" [] 0).said ∧
    HttpOrigin.prepare "" (tagRequest "v1") = .ok out ∧
    headerValue? "if-none-match" out.headers = some strongTag.value ∧
    headerValue? "etag"
      (Response.ofResult jar (.ok (some (revised "v1" [] 0))) .empty).1.headers =
        some strongTag.value := by
  obtain ⟨q, hrun, hfetch, hget, hreturned⟩ := run_revisit (.inl rfl)
  have http := overHttp_revisit kept?_strongTag
  obtain ⟨hback, hasked, hserved⟩ := entity_tag_survives_iff new_oldConfig hrun http
  obtain ⟨⟨a, hgiven⟩, hecho⟩ := hasked 1 _ _ _ hfetch rfl
  obtain ⟨-, hecho'⟩ := hserved 0 _ _ hget hreturned
  obtain ⟨out, hout⟩ := prepare_tagRequest (Etag.isHeaderValue_shown kept?_strongTag)
  have hsent : (headerValue? "etag" a.headers).bind Etag.sentBack? = some strongTag.value := by
    rw [← hgiven.shown, ← (hback strongTag).mpr ⟨rfl, rfl⟩, Etag.sentBack?, kept?_strongTag]
    rfl
  refine ⟨q, a, out, hrun, http, hgiven, hout, ?_, ?_⟩
  · rw [(hecho a hgiven "" out hout).made, hsent]
  · rw [(hecho' a hgiven .empty rfl).made, hsent]

/-- A weak tag does not: all of it is put between quotes. -/
theorem weak_tag_changed :
    Proxy.new oldConfig (.empty 1000) (.ofMillis 0) = .ok oldStart ∧
    OverHttp (revisit "W/\"v1\"") ∧
    .answer 0 (.ok (HttpOrigin.replyOf (tagged weakTag.value))) ∈ revisit "W/\"v1\"" ∧
    headerValue? "etag" (tagged weakTag.value).headers = some weakTag.value ∧
    ∃ q, oldStart.run MemoryStore.ops (revisit "W/\"v1\"") = some q ∧
      (∃ fetch c request out, q.fetches[1]? = some fetch ∧
        fetch.phase = .waiting (some c) request ∧ HttpOrigin.prepare "" request = .ok out ∧
        headerValue? "if-none-match" out.headers ≠ some weakTag.value) ∧
      ∃ c, q.getState 0 = .returned (.ok (some c)) ∧
        (Response.ofResult jar (.ok (some c)) .empty).1.status = 200 ∧
        headerValue? "etag" (Response.ofResult jar (.ok (some c)) .empty).1.headers ≠
          some weakTag.value := by
  obtain ⟨q, hrun, hfetch, hget, hreturned⟩ := run_revisit (.inr rfl)
  have hreply := replyOf_tagged kept?_weakTag
  have hvalue := Etag.isHeaderValue_shown kept?_weakTag
  obtain ⟨out, hout⟩ := prepare_tagRequest hvalue
  have hne : Etag.shown "W/\"v1\"" ≠ weakTag.value := by decide
  refine ⟨new_oldConfig, overHttp_revisit kept?_weakTag, ?_, ?_, q, hrun,
    ⟨_, _, _, out, hfetch, rfl, hout, ?_⟩, _, hreturned, rfl, ?_⟩
  · rw [hreply]
    simp [revisit]
  · simp +decide [tagged]
  · rw [ifNoneMatch_of_prepare hout]
    simpa [tagRequest] using hne
  · rw [headers_of_served rfl, etag_contentHeaders]
    simpa [revised, Option.filter, hvalue] using hne

end PullCache.Proxy
