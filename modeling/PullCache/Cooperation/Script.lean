import PullCache.Clock.Agenda
import PullCache.Cooperation.Basic
import PullCache.Data.Json
/-!
# Cooperation.Script

Cooperation tried out under a clock: calls come in at given times with work that is written down
beforehand, and the trial records when work starts and ends and what each call returns.

The trial only chooses which of the possible events happens next; what an event does is the business
of `Cooperation.step`.
-/

namespace PullCache

mutual

/-- How a piece of work ends. -/
inductive Ending where
  | returns (value : Json)
  | fails (fault : Fault)
  | panics
  /-- It makes a call of its own and ends as that does. -/
  | nests (key : Key) (work : Script)

/-- Work that takes a number of milliseconds. After a takeover it may be another piece of work. -/
inductive Script where
  | mk (delay : Nat) (ending : Ending) (takeover : Option Script)

end

namespace Script

def delay : Script → Nat
  | mk delay _ _ => delay

def ending : Script → Ending
  | mk _ ending _ => ending

/-- The work that is done, given whether it follows a takeover. -/
def inEffect (s : Script) (recheck : Bool) : Script :=
  match s with
  | mk _ _ (some other) => if recheck then other else s
  | s => s

end Script

mutual

/-- The number of calls in a piece of work. -/
def Ending.size : Ending → Nat
  | .nests _ work => work.size + 1
  | _ => 0

def Script.size : Script → Nat
  | .mk _ ending none => ending.size + 1
  | .mk _ ending (some other) => ending.size + other.size + 1

end

namespace Cooperation

/-- What a trial keeps about a call: its label, its work, and the work it was made by. -/
structure CallNote where
  label : String
  work : Script
  parent : Option WorkPlace

/-- What a call came to. -/
inductive CallResult where
  | returned (result : Except Fault Json)
  | panicked

/-- What happened in a trial, with the time in milliseconds. -/
inductive TrialLine where
  | started (label : String) (recheck : Bool) (t : Nat)
  | ended (label : String) (t : Nat)

/-- What is due in a trial. -/
inductive TrialTask where
  /-- Work starts. -/
  | start (place : WorkPlace)
  /-- Work has taken its time. -/
  | wake (place : WorkPlace)
  /-- A call may be able to go on. -/
  | poll (c : Nat)
  /-- Work goes on after the call that it made. -/
  | resume (place : WorkPlace) (c : Nat)

structure Trial where
  coop : Cooperation Json := {}
  passive : Duration
  active : Duration
  notes : List CallNote := []
  agenda : Agenda TrialTask := {}
  log : List TrialLine := []
  done : List (String × Nat × CallResult) := []
  /-- More than the number of things that can still happen. -/
  fuel : Nat := 64

namespace Trial

def phase? (w : Trial) (c : Nat) : Option (CallPhase Json) :=
  w.coop.calls[c]?.map (·.phase)

def isLive (w : Trial) (c : Nat) : Bool :=
  (w.phase? c).any (·.isLive)

/-- The call whose work runs at a place, and whether the work follows a takeover. -/
def workOf (w : Trial) : WorkPlace → Nat × Bool
  | .lease l => (w.coop.leases[l]?.map fun lease => (lease.leader, lease.recheck)).getD (0, false)
  | .call c => (c, false)

def note? (w : Trial) (c : Nat) : Option CallNote := w.notes[c]?

/-- Puts something in front of what can run. -/
def first (w : Trial) (t : TrialTask) : Trial :=
  { w with agenda := { w.agenda with ready := t :: w.agenda.ready } }

/-- Deals with a call that has come to an end: its result is recorded, or the work that made it goes
on. -/
def complete (w : Trial) (c : Nat) : Trial :=
  match w.note? c, w.phase? c with
  | some note, some phase =>
    if phase.isLive then w
    else match note.parent with
      | some place => w.first (.resume place c)
      | none =>
        match phase with
        | .returned result =>
          { w with done := w.done ++ [(note.label, w.agenda.now, .returned result)] }
        | .panicked => { w with done := w.done ++ [(note.label, w.agenda.now, .panicked)] }
        | _ => w
  | _, _ => w

/-- A call comes in. -/
def arrive (w : Trial) (label : String) (key : Key) (work : Script) (parent : Option WorkPlace)
    (passive active : Duration) : Trial :=
  let c := w.coop.calls.length
  let w := { w with
    coop := w.coop.after (.arrive key passive active)
    notes := w.notes ++ [CallNote.mk label work parent] }
  match w.phase? c with
  | some (.leading l) => { w with agenda := w.agenda.noteNow [.start (.lease l)] }
  | some (.following _ deadline) =>
    { w with agenda := w.agenda.noteAt (deadline / 1000000) (.poll c) }
  | _ => w.first (.start (.call c))

/-- Work ends: its outcome is published and its key released, or the call it is part of ends. -/
def endWork (w : Trial) (place : WorkPlace) (outcome : Option (Except Fault Json)) : Trial :=
  match place with
  | .lease l =>
    { w with
      coop := (w.coop.after (.publish l outcome)).after (.release l)
      agenda := w.agenda.noteNow ((w.coop.callsOn l).map .poll) }
  | .call c => { w with coop := w.coop.after (.finish c outcome) }.complete c

/-- Lets a call go on as far as it can. -/
def pollCall (w : Trial) (c : Nat) : Trial :=
  let before := w.coop.leases.length
  let coop := w.coop.advance c
  let started := (List.range coop.leases.length).drop before
  let w := { w with coop, agenda := w.agenda.noteNow (started.map fun l => .start (.lease l)) }
  match w.phase? c with
  | some (.leadingTakeover _ deadline) | some (.joined _ deadline) =>
    { w with agenda := w.agenda.noteAt (deadline / 1000000) (.poll c) }
  | _ => w.complete c

/-- Does what is due. -/
def perform (task : TrialTask) (w : Trial) : Trial :=
  let now := w.agenda.now
  match task with
  | .start place =>
    let (c, recheck) := w.workOf place
    match w.note? c with
    | some note =>
      if w.coop.goesOn place then
        { w with
          log := w.log ++ [TrialLine.started note.label recheck now]
          agenda := w.agenda.noteAt (now + (note.work.inEffect recheck).delay) (.wake place) }
      else w
    | none => w
  | .wake place =>
    let (c, recheck) := w.workOf place
    match w.note? c, w.coop.calls[c]? with
    | some note, some call =>
      if w.coop.goesOn place then
        let w := { w with log := w.log ++ [TrialLine.ended note.label now] }
        match (note.work.inEffect recheck).ending with
        | .returns value => w.endWork place (some (.ok value))
        | .fails fault => w.endWork place (some (.error fault))
        | .panics => w.endWork place none
        | .nests key work =>
          w.arrive (note.label ++ "/nest") key work (some place) call.passive call.active
      else w
    | _, _ => w
  | .poll c => if w.isLive c then w.pollCall c else w
  | .resume place c =>
    if w.coop.goesOn place then
      match w.phase? c with
      | some (.returned result) => w.endWork place (some result)
      | _ => w.endWork place none
    else w

def clockwork : Clockwork Trial TrialTask where
  agenda := agenda
  withAgenda w agenda := { w with agenda }
  moveTo t w := { w with
    coop := w.coop.after (.tick ((t - w.agenda.now) * 1000000))
    agenda := { w.agenda with now := t } }
  urgent
    | .poll _ => false
    | _ => true
  perform := perform

/-- The calls with a label that were not made by other work. -/
def labelled (w : Trial) (label : String) : List Nat :=
  (List.range w.notes.length).filter fun c =>
    (w.note? c).any fun note => note.label == label && note.parent.isNone

/-- Drops a call, and with it the calls that work inside it has made. -/
def dropCall (w : Trial) (c : Nat) : Trial :=
  let orphaned (w : Trial) (c : Nat) : Bool :=
    match (w.note? c).bind (·.parent) with
    | some (.call p) => !w.isLive p && w.isLive c
    | _ => false
  (List.range w.notes.length).foldl
    (fun w c => if orphaned w c then { w with coop := w.coop.after (.drop c) } else w)
    { w with coop := w.coop.after (.drop c) }

/-! ## Steps of a trial -/

inductive Step where
  | call (label : String) (key : Key) (work : Script)
  | pass (ms : Nat)
  | await (label : String)
  | awaitAll
  | abort (label : String)
  /-- Later calls use other timeouts. -/
  | timeouts (passive active : Duration)
  | look (key : Key)

/-- What a step tells at once. -/
inductive Answer where
  | nothing
  | aborted (wasRunning : Bool)
  | enabled (on : Bool)
  | seen (waiters : Int) (age : Option Duration) (passive active : Duration) (shown : String)

/-- Carries out a step and lets everything run that can run then. -/
def step (w : Trial) : Step → Answer × Trial
  | .call label key work =>
    let w := { w with fuel := w.fuel + 16 * work.size }
    (.nothing, clockwork.settle w.fuel (w.arrive label key work none w.passive w.active))
  | .pass ms => (.nothing, clockwork.pass w.fuel ms w)
  | .await label =>
    (.nothing, clockwork.await w.fuel (fun w => !(w.labelled label).any w.isLive) w)
  | .awaitAll =>
    (.nothing,
      clockwork.await w.fuel (fun w => !(List.range w.notes.length).any fun c =>
        (w.note? c).any (·.parent.isNone) && w.isLive c) w)
  | .abort label =>
    match (w.labelled label).filter w.isLive with
    | [] => (.aborted false, w)
    | c :: _ => (.aborted true, clockwork.settle w.fuel (w.dropCall c))
  | .timeouts passive active =>
    (.enabled (passive.nanos != 0), { w with passive, active })
  | .look key =>
    (.seen (w.coop.waiters key) ((w.coop.leaseAge? key).map Duration.mk) w.passive w.active
      (w.coop.describe w.passive w.active), w)

/-- The state without what has been reported. -/
def reported (w : Trial) : Trial :=
  { w with log := [], done := [] }

end Trial

end Cooperation

end PullCache
