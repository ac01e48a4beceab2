import PullCache.Clock.Agenda
import PullCache.Server.Routes
import PullCache.Store.Echo
/-!
# Proxy.Trial

The proxy tried out under a clock: clients come in at given times, the origin answers from a list
that is written down beforehand, the store can be told to fail, and the trial records what is asked
of the store and the origin and what each client gets.

The trial only chooses which of the possible events happens next; what an event does is the business
of `Proxy.step`.
-/

namespace PullCache.Proxy

/-- What the origin does with one request. -/
inductive Turn where
  | replies (reply : Reply)
  | fails (fault : OriginFault)
  | panics
  deriving DecidableEq, Repr

/-- What the origin does with one request, after a number of milliseconds. -/
structure ScriptedTurn where
  turn : Turn
  delay : Nat := 0
  deriving DecidableEq, Repr

/-- What the origin does when nothing is written down: it does not know the resource. -/
def ScriptedTurn.unknown : ScriptedTurn := ⟨.replies { status := 404 }, 0⟩

/-- How a client takes what it gets. -/
inductive Client where
  /-- It reads the body to its end. -/
  | reader
  /-- It leaves the body as it is. -/
  | glancer
  /-- It sent a request with a method to the server. -/
  | requester (method : String)
  deriving DecidableEq, Repr

/-- What a trial keeps about a get. -/
structure GetNote where
  label : String
  client : Client
  deriving DecidableEq, Repr

/-- What a client gets in the end. -/
inductive Receipt where
  | panicked
  /-- The result of a get, and what reading the body gave, if it was read. -/
  | result (resource : Resource) (result : Except Fault (Option Content))
      (read : Option (Except ReadFault Bytes))
  | response (response : Response) (body : Except ReadFault Bytes)
  /-- The target of the request is not legal. -/
  | badTarget

/-- What is asked of the store or the origin, with the time in milliseconds. -/
inductive TrialLine where
  | looksUp (display : String) (t : Nat)
  | stores (display : String) (t : Nat)
  | verifies (display : String) (t : Nat)
  | asks (request : OriginRequest) (t : Nat)

/-- What is due in a trial. -/
inductive TrialTask where
  /-- A get may be able to go on. -/
  | poll (get : Nat)
  /-- A fetch begins. -/
  | begin (fetch : Nat)
  /-- The origin has taken its time over the request of a fetch. -/
  | wake (fetch : Nat)

/-- The operations of a store that can be told to fail. -/
inductive StoreOperation where
  | lookup
  | store
  | verify
  deriving DecidableEq, Repr

/-- A proxy over a store that can be told to fail, and everything around it. -/
structure Trial (σ : Type) where
  proxy : Proxy (FaultyStore σ)
  /-- What the origin does with the requests to come. -/
  script : List ScriptedTurn := []
  /-- What the origin is about to do for the fetches that wait. -/
  awaited : List (Nat × Turn) := []
  notes : List GetNote := []
  agenda : Agenda TrialTask := {}
  log : List TrialLine := []
  done : List (String × Nat × Receipt) := []
  /-- The bodies that came from the origin piece by piece. -/
  bodies : List RemoteBody := []
  /-- More than the number of things that can still happen. -/
  fuel : Nat := 64

namespace Trial

variable {σ : Type} (ops : StoreOps σ)

/-- Lets events happen in turn, each if it is possible. -/
def act (w : Trial σ) (events : List ProxyEvent) : Trial σ :=
  { w with proxy := events.foldl (Proxy.after (FaultyStore.ops ops)) w.proxy }

def record (w : Trial σ) (line : TrialLine) : Trial σ :=
  { w with log := w.log ++ [line] }

def report (w : Trial σ) (label : String) (receipt : Receipt) : Trial σ :=
  { w with done := w.done ++ [(label, w.agenda.now, receipt)] }

def isRunning (w : Trial σ) (g : Nat) : Bool :=
  match w.proxy.getState g with
  | .running => g < w.proxy.gets.length
  | _ => false

/-! ## What clients get -/

/-- What a client takes out of the result of its get, and the streams after that. -/
def receive (client : Client) (r : Resource) (result : Except Fault (Option Content))
    (s : Streams) : Receipt × Streams :=
  match client with
  | .glancer => (.result r result none, s)
  | .reader =>
    match result with
    | .ok (some content) =>
      let (read, s) := content.payload.readAll s
      (.result r result (some read), s)
    | _ => (.result r result none, s)
  | .requester method =>
    let (response, s) := Response.ofResult r result s
    let response := response.forMethod method
    (.response response response.readBody, s)

/-- Reports a get that has come to an end. -/
def complete (w : Trial σ) (g : Nat) : Trial σ :=
  match w.notes[g]?, w.proxy.gets[g]? with
  | some note, some get =>
    match w.proxy.getState g with
    | .returned result =>
      let (receipt, streams) := receive note.client get.resource result w.proxy.streams
      { w with proxy := { w.proxy with streams } }.report note.label receipt
    | .panicked => w.report note.label .panicked
    | _ => w
  | _, _ => w

/-! ## Gets -/

/-- The call that a get waits as. -/
def callPhase? (w : Trial σ) (g : Nat) : Option (CallPhase (Option Content)) :=
  w.proxy.callOf? g >>= fun c => w.proxy.coop.calls[c]?.map (·.phase)

/-- The gets that wait on a lease, in order of arrival. -/
def getsOn (w : Trial σ) (l : Nat) : List Nat :=
  (List.range w.proxy.gets.length).filter fun g => (w.callPhase? g >>= (·.lease?)) == some l

/-- The events that move a get on, in the order in which they are tried. -/
def attempts (g : Nat) : List ProxyEvent :=
  [.lookUp g, .judge g, .enter g, .deliver g, .timeOut g, .exhaust g, .takeOver g, .deliver g,
    .timeOut g]

/-- Lets a get go on as far as it can, and notes down when its wait runs out. -/
def pollGet (w : Trial σ) (g : Nat) : Trial σ :=
  let w := match w.proxy.gets[g]? with
    | some ⟨resource, .lookUp⟩ => w.record (.looksUp resource.display w.agenda.now)
    | _ => w
  let fetches := w.proxy.fetches.length
  let w := w.act ops (attempts g)
  let started := (List.range w.proxy.fetches.length).drop fetches
  let w := { w with agenda := w.agenda.noteNow (started.map .begin) }
  match w.callPhase? g >>= (·.deadline?) with
  | some deadline => { w with agenda := w.agenda.noteAt (deadline / 1000000) (.poll g) }
  | none => w.complete g

/-! ## Fetches -/

def fetchPhase? (w : Trial σ) (i : Nat) : Option FetchPhase :=
  (w.proxy.fetch? i).map (·.phase)

/-- A fetch that has ended tells those who wait for it. -/
def endFetch (w : Trial σ) (i : Nat) : Trial σ :=
  match w.proxy.fetch? i with
  | some ⟨.lease l, _, _, _⟩ =>
    let waiting := w.getsOn l
    let w := w.act ops [.publish i, .release i]
    { w with agenda := w.agenda.noteNow (waiting.map .poll) }
  | some ⟨.call c, _, _, _⟩ =>
    let gets := (List.range w.proxy.gets.length).filter fun g => w.proxy.callOf? g == some c
    gets.foldl complete (w.act ops [.finish i])
  | none => w

/-- A fetch begins: it may find the resource in the store after all, and asks the origin
otherwise. -/
def beginFetch (w : Trial σ) (i : Nat) : Trial σ :=
  let now := w.agenda.now
  let w := match w.proxy.fetch? i with
    | some ⟨_, resource, _, .recheck⟩ => w.record (.looksUp resource.display now)
    | _ => w
  let w := w.act ops [.recheck i, .rejudge i, .ask i]
  match w.fetchPhase? i with
  | some (.waiting _ request) =>
    let scripted := w.script.head?.getD .unknown
    { w with
      script := w.script.tail
      awaited := w.awaited ++ [(i, scripted.turn)]
      agenda := w.agenda.noteAt (now + scripted.delay) (.wake i) }.record (.asks request now)
  | _ => w.endFetch ops i

/-- The event by which the turn of the origin reaches a fetch. -/
def turnEvent (i : Nat) : Turn → ProxyEvent
  | .replies reply => .answer i (.ok reply)
  | .fails fault => .answer i (.error fault)
  | .panics => .crash i

/-- Remembers the body of an answer that comes piece by piece. -/
def noteBody (w : Trial σ) (i : Nat) : Trial σ :=
  match w.fetchPhase? i with
  | some (.answered _ _ (.ok { body := some (.streaming body), .. })) =>
    { w with bodies := w.bodies ++ [body] }
  | _ => w

/-- The origin has done its turn, and the fetch makes of it what it can. -/
def wakeFetch (w : Trial σ) (i : Nat) : Trial σ :=
  match w.awaited.lookup i, w.proxy.fetch? i with
  | some turn, some fetch =>
    let w := { w with awaited := w.awaited.filter (·.1 ≠ i) }
    let w := (w.act ops [turnEvent i turn]).noteBody i
    let w := w.act ops [.handle i]
    let display := fetch.resource.display
    let w := match w.fetchPhase? i with
      | some (.storing ..) =>
        (w.record (.stores display w.agenda.now)).act ops [.stored i, .copied i]
      | some (.verifying ..) =>
        (w.record (.verifies display w.agenda.now)).act ops [.verified i]
      | _ => w
    w.endFetch ops i
  | _, _ => w

/-! ## The clock -/

/-- Does what is due. -/
def perform (task : TrialTask) (w : Trial σ) : Trial σ :=
  match task with
  | .poll g => if w.isRunning g then w.pollGet ops g else w
  | .begin i => w.beginFetch ops i
  | .wake i => w.wakeFetch ops i

def clockwork : Clockwork (Trial σ) TrialTask where
  agenda := agenda
  withAgenda w agenda := { w with agenda }
  moveTo t w :=
    let w := w.act ops [.tick ((t - w.agenda.now) * 1000000)]
    { w with agenda := { w.agenda with now := t } }
  urgent
    | .poll _ => false
    | _ => true
  perform := perform ops

/-- Lets everything run that can run at the present time. -/
def settle (w : Trial σ) : Trial σ :=
  (clockwork ops).settle w.fuel w

/-- Lets a number of milliseconds pass. -/
def pass (w : Trial σ) (ms : Nat) : Trial σ :=
  (clockwork ops).pass w.fuel ms w

/-- The gets with a label. -/
def labelled (w : Trial σ) (label : String) : List Nat :=
  (List.range w.notes.length).filter fun g => w.notes[g]?.any (·.label == label)

/-- Lets time pass until no get with a label is running. -/
def await (w : Trial σ) (label : String) : Trial σ :=
  (clockwork ops).await w.fuel (fun w => !(w.labelled label).any w.isRunning) w

/-- Lets time pass until no get is running. -/
def awaitAll (w : Trial σ) : Trial σ :=
  (clockwork ops).await w.fuel (fun w => !(List.range w.notes.length).any w.isRunning) w

/-! ## Steps of a trial -/

/-- A trial of a proxy with given settings over a store. -/
def new (config : Config) (store : σ) (script : List ScriptedTurn) (start : Instant) :
    Except Fault (Trial σ) :=
  (Proxy.new config { inner := store } start).map fun proxy => { proxy, script }

/-- The origin is told what to do with later requests. -/
def instruct (w : Trial σ) (turns : List ScriptedTurn) : Trial σ :=
  { w with script := w.script ++ turns }

/-- The store is told to fail the next operations of a kind. -/
def breakStore (w : Trial σ) (operation : StoreOperation) (times : Nat) (fault : StoreFault) :
    Trial σ :=
  let faults := List.replicate times fault
  let store := w.proxy.store
  let store := match operation with
    | .lookup => { store with lookups := store.lookups ++ faults }
    | .store => { store with stores := store.stores ++ faults }
    | .verify => { store with verifications := store.verifications ++ faults }
  { w with proxy := { w.proxy with store } }

/-- A client asks for a resource. -/
def request (w : Trial σ) (label : String) (client : Client) (r : Resource) : Trial σ :=
  let g := w.proxy.gets.length
  let w := w.act ops [.request r]
  { w with
    notes := w.notes ++ [⟨label, client⟩]
    agenda := w.agenda.noteNow [.poll g]
    fuel := w.fuel + 32 }

/-- A client sends a request to the server. -/
def serve (w : Trial σ) (label method target : String) : Trial σ :=
  match Target.parse? target with
  | none => w.report label .badTarget
  | some target =>
    match Route.of method target with
    | .resource r => w.request ops label (.requester method) r
    | route =>
      match Response.ofRoute w.proxy route with
      | none => w
      | some response =>
        let proxy := match route with
          | .invalidate => w.proxy.invalidate
          | _ => w.proxy
        let response := response.forMethod method
        { w with proxy }.report label (.response response response.readBody)

/-- A client goes away. The answer is whether its get was still running. -/
def abort (w : Trial σ) (label : String) : Bool × Trial σ :=
  match (w.labelled label).filter w.isRunning with
  | [] => (false, w)
  | g :: _ => (true, w.act ops [.drop g])

def invalidate (w : Trial σ) : Trial σ :=
  { w with proxy := w.proxy.invalidate }

/-- New settings are put in place, unless their remote is unusable. -/
def update (w : Trial σ) (config : Config) : Except Fault (Trial σ) :=
  let (result, proxy) := w.proxy.update config
  result.map fun _ => { w with proxy }

/-- Something is done to the store directly. -/
def onStore (w : Trial σ) (change : σ → β × σ) : β × Trial σ :=
  let (answer, inner) := change w.proxy.store.inner
  (answer, { w with proxy := { w.proxy with store := { w.proxy.store with inner } } })

/-- Whose token a stamp gets. -/
inductive SeedToken where
  | present
  | absent
  | other (text : String)

/-- A stamp of a given age in milliseconds. -/
def seedStamp (w : Trial σ) (r : Resource) (age : Int) (token : SeedToken) : Stamp :=
  let stamp := (w.proxy.controller r).stampAt (w.proxy.wall.addMillis (-age))
  { stamp with token := match token with
      | .present => stamp.token
      | .absent => none
      | .other text => some (.named text) }

/-- Content is put into the store directly. -/
def seed (w : Trial σ) (r : Resource) (source : BodySource) (attributes : Attributes) :
    Except StoreFault Unit × Trial σ :=
  let (payload, streams) := source.payload w.proxy.streams
  let (kept, inner, streams) := ops.store w.proxy.store.inner streams r ⟨payload, attributes⟩
  (kept.map fun _ => (),
    { w with proxy := { w.proxy with store := { w.proxy.store with inner }, streams } })

/-- What the store holds for a resource. -/
def held (w : Trial σ) (r : Resource) : Except StoreFault (Option Content) :=
  (ops.lookup w.proxy.store.inner r).1

/-- Whether each body that came from the origin piece by piece is gone. -/
def consumedBodies (w : Trial σ) : List Bool :=
  w.bodies.map w.proxy.streams.isConsumed

/-- The state without what has been reported. -/
def reported (w : Trial σ) : Trial σ :=
  { w with log := [], done := [] }

end Trial

end PullCache.Proxy
