import RemoteShell.Rehearsal.Job

/-!
# Stage

Where the jobs of a rehearsal run, in virtual time.  Tasks run one after another, each up to its
next wait; a wait that takes no time is answered at once.  Time stands still while a task is ready
to run, and then moves to the next timer.  Timers go off on whole milliseconds, in the order in
which they were set.

The task in front takes the step; the other tasks are those that it started, and those left from
earlier steps.  When timers go off together, the task in front runs before the others; otherwise it
runs when no other is ready.

A step is cancelled by a task of its own.  When its time has come, the task that takes the step is
told so; what it was going to be told otherwise, it does not hear any more.

## Main definitions

* `Task`, `Signal`, `Timer`, `Stage`: tasks, what they are told, and when.
* `Stage.drive`: a job goes on up to its next wait.
* `Stage.handle`: a task is told something.
* `Stage.perform`: a step is taken to its end.
-/

namespace RemoteShell.Rehearsal

/-- What a task does. -/
inductive Task where
  | planned (after : Duration) (s : Step)
  | sweeper (every : Duration)
  -- It does a job; some closes have begun and are not over.
  | doing (j : Job) (closing : List ConnId)
  | gathering (tasks : List CallId)
  -- It cancels another task after some time.
  | canceller (after : Duration) (target : CallId)

/-- What a task is told. -/
inductive Signal where
  | start
  | done (p : Pending)
  | turn
  | cancel
  | gathered

/-- A signal that a task is going to get. -/
structure Timer where
  due : Instant
  task : CallId
  signal : Signal

/-- Where the jobs of a rehearsal run. -/
structure Stage where
  now : Instant
  bench : Bench
  tasks : Assoc CallId Task
  timers : List Timer
  ready : List (CallId × Signal)
  -- How the other tasks ended, and at which millisecond.
  endings : Assoc CallId (Ending × Nat)
  next : CallId
  sweeper : Option CallId

namespace Stage

/-- A stage on which nothing has happened. -/
def empty (b : Bench) : Stage := ⟨.start, b, [], [], [], [], 0, none⟩

/-- How many signals are passed on before a step is given up. -/
def patience : Nat := 1000000000

/-! ## Tasks and timers -/

/-- Make a signal ready. -/
def push (t : Stage) (id : CallId) (s : Signal) : Stage := { t with ready := t.ready ++ [(id, s)] }

/-- Set a timer; it goes off on a whole millisecond. -/
def setTimer (t : Stage) (d : Duration) (id : CallId) (s : Signal) : Stage :=
  { t with timers := t.timers ++ [⟨(t.now.after d).ceilMillis, id, s⟩] }

/-- Change what a task does. -/
def setTask (t : Stage) (id : CallId) (x : Task) : Stage := { t with tasks := t.tasks.put id x }

/-- A new task. -/
def spawn (t : Stage) (x : Task) : CallId × Stage :=
  (t.next, { t.setTask t.next x with next := t.next + 1 })

/-- Forget the timers and signals of a task. -/
def silence (t : Stage) (id : CallId) : Stage :=
  { t with
    timers := t.timers.filter fun x => x.task != id
    ready := t.ready.filter fun x => x.1 != id }

/-- A task is dropped where it stands. -/
def drop (t : Stage) (id : CallId) : Stage := { t.silence id with tasks := t.tasks.erase id }

/-- The tasks that wait for a task and for no other that has not ended. -/
def gatherers (t : Stage) (id : CallId) : List CallId :=
  t.tasks.filterMap fun (g, x) =>
    match x with
    | .gathering ids => if ids.contains id && ids.all t.endings.has then some g else none
    | _ => none

/-- A task ends. -/
def finish (t : Stage) (id : CallId) (e : Ending) : Stage :=
  let t := t.drop id
  let t := { t with endings := t.endings.put id (e, t.now.millis) }
  (t.gatherers id).foldl (fun t g => t.push g .gathered) t

/-! ## Jobs -/

/-- The closes of a task that have begun and are not over. -/
def closing (t : Stage) (id : CallId) : List ConnId :=
  match t.tasks.get? id with
  | some (.doing _ cs) => cs
  | _ => []

/-- A job waits. -/
def keep (t : Stage) (id : CallId) (j : Job) : Stage := t.setTask id (.doing j (t.closing id))

/-- The wait of a job that has to begin now, if there is one.  Closes that have begun already go
on. -/
def due? (t : Stage) (id : CallId) (j : Job) : Option Wait :=
  match j.wait t.bench with
  | .turn => if j.admitted t.bench then some .turn else none
  | .close cs =>
    (cs.find? fun c => !(t.closing id).contains c).map fun c => .close [c]
  | w => some w

/-- Note that a close has begun. -/
def noteClosing (t : Stage) (id : CallId) (j : Job) : Wait → Stage
  | .close cs => t.setTask id (.doing j (cs ++ t.closing id))
  | _ => t

/-- The end of a wait is told to the world, which answers it. -/
def answer (t : Stage) (p : Pending) : Stage × Answer :=
  let (w, a) := t.bench.world.finish p
  ({ t with bench := { t.bench with world := w } }, a)

/-- Does a task wait for a lock that it has got, without having been told? -/
def hasTurn (t : Stage) (id : CallId) : Task → Bool
  | .doing j _ =>
    (j.wait t.bench matches .turn) && j.admitted t.bench &&
      !t.ready.any fun r => r.1 == id && (r.2 matches .turn)
  | _ => false

/-- A job has changed the bench: tell the other jobs whose turn for a lock has come. -/
def withBench (t : Stage) (self : CallId) (b : Bench) : Stage :=
  let t := { t with bench := b }
  t.tasks.foldl (fun t (id, x) =>
    if id != self && t.hasTurn id x then t.push id .turn else t) t

/-- A job goes on up to its next wait.  A wait that takes no time is answered at once; side by
side, all closes begin. -/
def drive : Nat → CallId → Job.Advance → Stage → Stage
  | 0, id, (b, _), t => t.withBench id b
  | _ + 1, id, (b, .ends e), t => (t.withBench id b).finish id e
  | n + 1, id, (b, .waits j), t =>
    let t := (t.withBench id b).keep id j
    match t.due? id j with
    -- Its turn has not come, or all its closes have begun.
    | none => t
    | some w =>
      let (world, d, p) := b.world.begin t.now j.shell w
      let t := { t with bench := { b with world := world } }
      -- Other tasks do not get to run in between.
      if d.isZero then
        let (t, a) := t.answer p
        drive n id (j.resume a t.now t.bench) t
      else
        let t := (t.setTimer d id (.done p)).noteClosing id j w
        match w with
        | .close _ => drive n id (t.bench, .waits j) t
        | _ => t

/-! ## Steps -/

/-- When the caller of a step cancels it, if it does so later. -/
def cancellation : Act → Option Duration
  | .execute o => o.cancelAfter.filter fun d => !d.isZero
  | _ => none

/-- Begin to take steps side by side. -/
def fork (t : Stage) : List (Duration × Step) → List CallId × Stage
  | [] => ([], t)
  | (d, s) :: rest =>
    let (id, t) := t.spawn (.planned d s)
    let (ids, t) := (t.push id .start).fork rest
    (id :: ids, t)

/-- Replace the task that closes the idle connections. -/
def setSweeper (t : Stage) (every : Duration) : Stage :=
  let t := match t.sweeper with
    | none => t
    | some id => t.drop id
  if every.isZero then { t with sweeper := none }
  else
    let (id, t) := t.spawn (.sweeper every)
    { t.push id .start with sweeper := some id }

/-- Begin to cancel a task after some time. -/
def setCanceller (t : Stage) (after : Duration) (target : CallId) : Stage :=
  let (id, t) := t.spawn (.canceller after target)
  t.push id .start

/-- Cancel a task.  One that is ready already keeps its place, but hears of nothing else. -/
def cancel (t : Stage) (id : CallId) : Stage :=
  if t.ready.any fun r => r.1 == id then
    { t with ready := t.ready.map fun r => if r.1 == id then (id, .cancel) else r }
  else t.push id .cancel

/-- A task begins to take a step. -/
def begin (t : Stage) (id : CallId) : Step → Stage
  | .act a =>
    -- The canceller gets to run after the step has come to its first wait.
    let t := match cancellation a with
      | none => t
      | some d => t.setCanceller d id
    drive patience id (a.begin id t.now t.bench) t
  | .par calls =>
    let (ids, t) := t.fork calls
    if ids.isEmpty then t.finish id (.answered (.several []))
    else t.setTask id (.gathering ids)
  | .sweeper every => (t.setSweeper every).finish id (.answered .nothing)

/-- How a task ends that waited for others: with their answers, unless one of them crashed. -/
def together (t : Stage) (ids : List CallId) : Ending :=
  let parts : Option (List (Result × Nat)) := ids.mapM fun id =>
    match t.endings.get? id with
    | some (.answered r, n) => some (r, n)
    | _ => none
  match parts with
  | none => .crashed
  | some rs => .answered (.several rs)

/-- A task that does a job is told something. -/
def tell (t : Stage) (id : CallId) (j : Job) (cs : List ConnId) : Signal → Stage
  | .done p =>
    let (t, a) := t.answer p
    let t := match a with
      | .closed c => t.setTask id (.doing j (cs.erase c))
      | _ => t
    drive patience id (j.resume a t.now t.bench) t
  | .turn => drive patience id (j.resume .admitted t.now t.bench) t
  | .cancel =>
    match j.cancel t.bench with
    | none => t
    | some a => drive patience id a t
  | _ => t

/-- A task is told something. -/
def handle (t : Stage) (id : CallId) (s : Signal) : Stage :=
  match t.tasks.get? id, s with
  | some (.planned d step), .start =>
    -- A step that is planned for later comes back here, and then for now.
    if d.isZero then t.begin id step
    else (t.setTask id (.planned .zero step)).setTimer d id .start
  | some (.sweeper every), .start =>
    drive patience id (t.bench, .waits (Job.sweeper every t.now)) t
  | some (.canceller d target), .start =>
    if d.isZero then (t.drop id).cancel target
    else (t.setTask id (.canceller .zero target)).setTimer d id .start
  | some (.doing j cs), s => t.tell id j cs s
  | some (.gathering ids), .gathered => t.finish id (t.together ids)
  | _, _ => t

/-! ## Time -/

/-- The instant at which the next timer goes off. -/
def nextDue? (t : Stage) : Option Instant :=
  t.timers.foldl (fun x y =>
    match x with
    | none => some y.due
    | some d => some (if y.due < d then y.due else d)) none

/-- Time moves to an instant, and the timers that are due then go off.  The task in front runs at
once, and the others are ready. -/
def advance (t : Stage) (front : CallId) (due : Instant) : Stage :=
  -- A partition keeps the order in which the timers were set.
  let (off, rest) := t.timers.partition fun x => x.due == due
  let (mine, others) := off.partition fun x => x.task == front
  let t := { t with
    now := due
    timers := rest
    ready := others.map fun x => (x.task, x.signal) }
  mine.foldl (fun t x => t.handle front x.signal) t

/-- The signal that is handled next, and those left: one for the task in front has to wait until
there are no others. -/
def nextReady? (front : CallId) (ready : List (CallId × Signal)) :
    Option ((CallId × Signal) × List (CallId × Signal)) :=
  let (mine, others) := ready.partition fun r => r.1 == front
  match others with
  | r :: rest => some (r, mine ++ rest)
  | [] =>
    match mine with
    | r :: rest => some (r, rest)
    | [] => none

/-- Tasks run until the one in front has ended. -/
def run : Nat → CallId → Stage → Stage
  | 0, _, t => t
  | n + 1, front, t =>
    if t.endings.has front then t
    else
      -- Time moves only when no task is ready.
      match nextReady? front t.ready with
      | some ((id, s), rest) => run n front ({ t with ready := rest }.handle id s)
      | none =>
        match t.nextDue? with
        | none => t
        | some due => run n front (t.advance front due)

/-- A step is taken to its end, if it comes to one.  What is ready from earlier has to wait until
the step has come to its first wait. -/
def perform (t : Stage) (s : Step) : Option Ending × Stage :=
  let (id, t) := t.spawn (.planned .zero s)
  let t := run patience id (t.handle id .start)
  ((t.endings.get? id).map (·.1), { t with endings := [] })

end Stage

end RemoteShell.Rehearsal
