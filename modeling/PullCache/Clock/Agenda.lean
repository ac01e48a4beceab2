/-!
# Clock.Agenda

A clock for trying things out: it stands still while anything can run and then jumps to the next
time for which something is noted down. What is noted for one time runs in the order in which it was
noted, what is urgent first.

Times are in milliseconds.
-/

namespace PullCache

/-- What is to be done: what can run now, in order, and what waits for its time, the earliest
first. -/
structure Agenda (ω : Type) where
  now : Nat := 0
  ready : List ω := []
  timers : List (Nat × ω) := []

namespace Agenda

/-- Puts an item after all that are due no later. -/
def insertTimer (t : Nat) (w : ω) : List (Nat × ω) → List (Nat × ω)
  | [] => [(t, w)]
  | entry :: rest =>
    if entry.1 ≤ t then entry :: insertTimer t w rest else (t, w) :: entry :: rest

/-- Notes something down for a time. -/
def noteAt (a : Agenda ω) (t : Nat) (w : ω) : Agenda ω :=
  { a with timers := insertTimer t w a.timers }

/-- Notes something down for now, after all that can run already. -/
def noteNow (a : Agenda ω) (ws : List ω) : Agenda ω :=
  { a with ready := a.ready ++ ws }

end Agenda

/-- A state with a clock, and how it does what is on its agenda. -/
structure Clockwork (S ω : Type) where
  agenda : S → Agenda ω
  withAgenda : S → Agenda ω → S
  /-- The state at a later time. -/
  moveTo : Nat → S → S
  urgent : ω → Bool
  perform : ω → S → S

namespace Clockwork

variable (k : Clockwork S ω)

/-- Lets everything run that is due, up to a limit if there is one. It stops early when nothing can
run at the present time and the goal is reached. The fuel bounds the number of things done. -/
def run (goal : S → Bool) (limit : Option Nat) : Nat → S → S
  | 0, s => s
  | fuel + 1, s =>
    let a := k.agenda s
    match a.ready, a.timers with
    | w :: rest, _ => run goal limit fuel (k.perform w (k.withAgenda s { a with ready := rest }))
    | [], timers =>
      let next := timers.head?.map (·.1)
      if goal s ∧ ¬ next.any (· ≤ a.now) then s
      else match next with
        | none => (match limit with
          | some t => k.moveTo (max a.now t) s
          | none => s)
        | some t =>
          if limit.any (· < t) then k.moveTo (max a.now (limit.getD 0)) s
          else
            let s := k.moveTo (max a.now t) s
            let due := (timers.takeWhile (·.1 ≤ t)).map (·.2)
            let a := { k.agenda s with
              ready := due.filter k.urgent ++ due.filter (fun w => !k.urgent w)
              timers := timers.dropWhile (·.1 ≤ t) }
            run goal limit fuel (k.withAgenda s a)

/-- Lets everything run that can run at the present time. -/
def settle (fuel : Nat) (s : S) : S :=
  k.run (fun _ => true) (some (k.agenda s).now) fuel s

/-- Lets a number of milliseconds pass. -/
def pass (fuel ms : Nat) (s : S) : S :=
  k.run (fun _ => false) (some ((k.agenda s).now + ms)) fuel s

/-- Lets time pass until a goal is reached. -/
def await (fuel : Nat) (goal : S → Bool) (s : S) : S :=
  k.run goal none fuel s

end Clockwork

end PullCache
